import FilterLang.Command.Arguments
import FilterLang.Proofs.Except
import Mathlib.Data.List.Induction

/-!
# What a command line says

`Says` gives the items that a command line is made of, in all the ways in which they can be written: an option by
its name or by its letter, the letters joined or not, a file attached to its option or behind it.  It knows nothing
of how arguments are taken in.

What is written so is taken in item by item (`Says.withArguments_eq`), and nothing else is ever accepted
(`Request.exists_says_of_ofArguments`).  There is room for each item once, so a command line makes the request that
asks for just what its items say (`Request.ofArguments_eq_ok_iff_of_says`).
-/

namespace FilterLang.Command

/-! ## Items -/

/-- An option that stands alone. -/
inductive Flag where
  | tree
  | debug
deriving DecidableEq

/-- An option that has a file. -/
inductive FileOption where
  | data
  | grammar
deriving DecidableEq

/-- What one part of a command line says; the name of a file is not empty. -/
inductive Item where
  | expression (text : String)
  | flag (f : Flag)
  | file (o : FileOption) (name : String) (named : name ≠ "")
deriving DecidableEq

def Flag.opt : Flag → Opt
  | tree => .tree
  | debug => .debug

def FileOption.opt : FileOption → Opt
  | data => .data
  | grammar => .grammar

/-- The name of the option, to be written behind two hyphens. -/
def Opt.longName : Opt → String
  | data => "data"
  | grammar => "grammar"
  | tree => "tree"
  | debug => "debug"
  | help => "help"
  | version => "version"

/-- The letter of the option, to be written behind one hyphen. -/
def Opt.letter : Opt → Char
  | data => 'D'
  | grammar => 'g'
  | tree => 't'
  | debug => 'd'
  | help => 'h'
  | version => 'V'

/-! ## How items are written -/

/-- Whether the text is no option, so that it can be an expression or the file that an option waits for. -/
def StandsAlone (text : String) : Prop :=
  text.toList.head? ≠ some '-' ∨ text = "-"

instance (text : String) : Decidable (StandsAlone text) :=
  inferInstanceAs (Decidable (_ ∨ _))

/-- There is nothing behind a hyphen. -/
theorem standsAlone_iff {text : String} : StandsAlone text ↔ ∀ c cs, text.toList ≠ '-' :: c :: cs := by
  rw [StandsAlone, ← String.toList_inj]
  cases text.toList with
  | nil => simp
  | cons d rest =>
    cases rest with
    | nil => simpa using (em (d = '-')).symm
    | cons c cs => simp

/-- A hyphen with the letters of options, and what is written behind these. -/
def group (fs : List Flag) (rest : List Char) : String :=
  String.ofList ('-' :: (fs.map (·.opt.letter) ++ rest))

/-- Whether the argument says these items, and which option of it has its file in the argument behind. -/
inductive Spells : String → List Item → Option FileOption → Prop where
  | expression {text : String} (alone : StandsAlone text) : Spells text [.expression text] none
  | flag (f : Flag) : Spells ("--" ++ f.opt.longName) [.flag f] none
  | file (o : FileOption) {name : String} (named : name ≠ "") :
      Spells ("--" ++ o.opt.longName ++ "=" ++ name) [.file o name named] none
  | awaited (o : FileOption) : Spells ("--" ++ o.opt.longName) [] (some o)
  | letters {fs : List Flag} (hne : fs ≠ []) : Spells (group fs []) (fs.map .flag) none
  /-- The file follows its letter at once -/
  | lettersFile (fs : List Flag) (o : FileOption) {name : String} (named : name ≠ "")
      (head : name.toList.head? ≠ some '=') :
      Spells (group fs (o.opt.letter :: name.toList)) (fs.map .flag ++ [.file o name named]) none
  /-- The file follows its letter behind an equals sign -/
  | lettersEquals (fs : List Flag) (o : FileOption) {name : String} (named : name ≠ "") :
      Spells (group fs (o.opt.letter :: '=' :: name.toList)) (fs.map .flag ++ [.file o name named]) none
  | lettersAwaited (fs : List Flag) (o : FileOption) :
      Spells (group fs [o.opt.letter]) (fs.map .flag) (some o)

/-- Whether the command line says these items, from left to right.  Behind `--` there are expressions only. -/
inductive Says : List String → List Item → Prop where
  | nil : Says [] []
  | expressions (texts : List String) : Says ("--" :: texts) (texts.map .expression)
  | cons {argument : String} {rest : List String} {items more : List Item}
      (spelled : Spells argument items none) (said : Says rest more) :
      Says (argument :: rest) (items ++ more)
  | consFile {argument name : String} {rest : List String} {items more : List Item} {o : FileOption}
      (spelled : Spells argument items (some o)) (named : name ≠ "") (alone : StandsAlone name)
      (said : Says rest more) :
      Says (argument :: name :: rest) (items ++ .file o name named :: more)

/-! ## What items ask for -/

namespace Item

/-- The expression that the item is, if it is one. -/
def expression? : Item → Option String
  | expression text => some text
  | _ => none

/-- The file that the item names for the option, if it does. -/
def file? (o : FileOption) : Item → Option String
  | file o' name _ => if o' = o then some name else none
  | _ => none

end Item

/-- Whether the draft asks for what the items say and for nothing else: there is at most one expression and at most
one file of each kind, and an option that stands alone is there once or not at all. -/
structure Draft.MadeOf (d : Draft) (items : List Item) : Prop where
  expression : items.filterMap Item.expression? = d.expression.toList
  /-- The file named by `--data` or `-D` -/
  data : items.filterMap (Item.file? .data) = d.data.toList
  /-- The file named by `--grammar` or `-g` -/
  grammar : items.filterMap (Item.file? .grammar) = d.grammar.toList
  /-- Whether there is `--tree` or `-t` -/
  treeOnly : items.count (.flag .tree) = d.treeOnly.toNat
  /-- Whether there is `--debug` or `-d` -/
  debug : items.count (.flag .debug) = d.debug.toNat

/-- The draft that makes the request; it has an expression. -/
def Request.draft (r : Request) : Draft where
  expression := some r.expression
  data := r.data
  grammar := r.grammar
  treeOnly := r.treeOnly
  debug := r.debug

theorem Draft.finish_eq_ok_iff {d : Draft} {r : Request} : d.finish = .ok r ↔ d = r.draft := by
  obtain ⟨expression, data, grammar, treeOnly, debug⟩ := d
  obtain ⟨expression', data', grammar', treeOnly', debug'⟩ := r
  cases expression <;> simp [finish, misuse, Request.draft]

/-! ## Items taken in one by one -/

namespace Draft

/-- Takes in the next item. -/
def take (d : Draft) : Item → Except Interrupt Draft
  | .expression text => d.withExpression text
  | .flag f => d.withFlag f.opt
  | .file o name _ => d.withFile o.opt name

/-- Whether the draft has an item of this kind already. -/
def has (d : Draft) : Item → Bool
  | .expression _ => d.expression.isSome
  | .flag .tree => d.treeOnly
  | .flag .debug => d.debug
  | .file .data _ _ => d.data.isSome
  | .file .grammar _ _ => d.grammar.isSome

/-- The draft with the item. -/
def adding (d : Draft) : Item → Draft
  | .expression text => { d with expression := some text }
  | .flag .tree => { d with treeOnly := true }
  | .flag .debug => { d with debug := true }
  | .file .data name _ => { d with data := some name }
  | .file .grammar name _ => { d with grammar := some name }

variable {d d' : Draft} {front back items : List Item} {item : Item}

theorem take_eq_ok_iff : d.take item = .ok d' ↔ d.has item = false ∧ d.adding item = d' := by
  cases item with
  | expression text =>
    cases hslot : d.expression <;> simp [take, withExpression, misuse, has, adding, hslot]
  | flag f =>
    cases f with
    | tree => cases hslot : d.treeOnly <;> simp [take, Flag.opt, withFlag, misuse, has, adding, hslot]
    | debug => cases hslot : d.debug <;> simp [take, Flag.opt, withFlag, misuse, has, adding, hslot]
  | file o name named =>
    cases o with
    | data =>
      cases hslot : d.data <;> simp [take, FileOption.opt, withFile, misuse, has, adding, named, hslot]
    | grammar =>
      cases hslot : d.grammar <;>
        simp [take, FileOption.opt, withFile, misuse, has, adding, named, hslot]

theorem take_ne_unknownOption {option : String} : d.take item ≠ .error (.misuse (.unknownOption option)) := by
  cases item with
  | expression text =>
    simp only [take, withExpression, misuse]
    split <;> simp
  | flag f =>
    cases f <;> simp only [take, Flag.opt, withFlag, misuse] <;> split <;> simp
  | file o name named =>
    cases o <;> simp only [take, FileOption.opt, withFile, misuse, if_neg named] <;> split <;> simp

theorem MadeOf.unique (h : d.MadeOf items) (h' : d'.MadeOf items) : d = d' := by
  have hlist : ∀ {x y : Option String}, x.toList = y.toList → x = y := by
    intro x y hxy
    cases x <;> cases y <;> simp_all
  have hbool : ∀ {x y : Bool}, x.toNat = y.toNat → x = y := by decide
  obtain ⟨expression, data, grammar, treeOnly, debug⟩ := d
  obtain ⟨expression', data', grammar', treeOnly', debug'⟩ := d'
  rw [mk.injEq]
  exact ⟨hlist (h.expression.symm.trans h'.expression), hlist (h.data.symm.trans h'.data),
    hlist (h.grammar.symm.trans h'.grammar), hbool (h.treeOnly.symm.trans h'.treeOnly),
    hbool (h.debug.symm.trans h'.debug)⟩

theorem MadeOf.adding (h : d.MadeOf front) (hroom : d.has item = false) :
    (d.adding item).MadeOf (front ++ [item]) := by
  obtain ⟨hexpression, hdata, hgrammar, htree, hdebug⟩ := h
  rcases item with text | ⟨⟨⟩⟩ | ⟨⟨⟩, name, named⟩ <;> constructor <;>
    simp_all [has, Draft.adding, Item.expression?, Item.file?]

/-- There is no room for an item of a kind that is there already. -/
theorem MadeOf.not_of_has (h : d.MadeOf front) (hfull : d.has item = true) :
    ¬d'.MadeOf (front ++ item :: back) := by
  have hlist : ∀ {x y : Option String} {a : String} {more : List String}, x.isSome = true →
      x.toList ++ a :: more ≠ y.toList := by
    intro x y a more hx
    cases x <;> cases y <;> simp_all
  have hbool : ∀ {x y : Bool} {n : Nat}, x = true → x.toNat + (n + 1) ≠ y.toNat := by
    intro x y n hx
    cases y <;> simp [hx]
  obtain ⟨hexpression, hdata, hgrammar, htree, hdebug⟩ := h
  rintro ⟨hexpression', hdata', hgrammar', htree', hdebug'⟩
  rcases item with text | ⟨⟨⟩⟩ | ⟨⟨⟩, name, named⟩
  · rw [List.filterMap_append, hexpression] at hexpression'
    exact hlist hfull hexpression'
  · rw [List.count_append, htree, List.count_cons_self] at htree'
    exact hbool hfull htree'
  · rw [List.count_append, hdebug, List.count_cons_self] at hdebug'
    exact hbool hfull hdebug'
  · rw [List.filterMap_append, hdata] at hdata'
    exact hlist hfull hdata'
  · rw [List.filterMap_append, hgrammar] at hgrammar'
    exact hlist hfull hgrammar'

theorem madeOf_of_foldlM_take (h : items.foldlM take {} = .ok d) : d.MadeOf items := by
  induction items using List.reverseRecOn generalizing d with
  | nil =>
    cases h
    exact ⟨rfl, rfl, rfl, rfl, rfl⟩
  | append_singleton front item ih =>
    rw [List.foldlM_append, except_bind_eq_ok_iff] at h
    obtain ⟨d', hfront, hitem⟩ := h
    rw [List.foldlM_cons, except_bind_eq_ok_iff] at hitem
    obtain ⟨_, htake, hnil⟩ := hitem
    cases hnil
    obtain ⟨hroom, rfl⟩ := take_eq_ok_iff.1 htake
    exact (ih hfront).adding hroom

/-- Items that are taken in one by one make the draft that asks for just them, if there is one. -/
theorem foldlM_take_eq_ok_iff : items.foldlM take {} = .ok d ↔ d.MadeOf items := by
  refine ⟨madeOf_of_foldlM_take, fun h => ?_⟩
  cases hfold : items.foldlM take {} with
  | ok d' => rw [(madeOf_of_foldlM_take hfold).unique h]
  | error e =>
    -- the item that is refused is there twice, and so it is in no draft
    obtain ⟨front, item, back, d', rfl, hfront, htake⟩ := foldlM_eq_error hfold
    have hfull : d'.has item = true := by
      rw [← Bool.not_eq_false]
      intro hroom
      rw [take_eq_ok_iff.2 ⟨hroom, rfl⟩] at htake
      cases htake
    exact absurd h ((madeOf_of_foldlM_take hfront).not_of_has hfull)

end Draft

/-! ## Options by their names and letters -/

theorem Opt.ofLetter?_eq_some_iff {c : Char} {o : Opt} : ofLetter? c = some o ↔ c = o.letter := by
  unfold ofLetter?
  cases o <;> split <;> simp_all [letter]

theorem Opt.ofLong?_eq_some_iff {text : String} {o : Opt} : ofLong? text = some o ↔ text = o.longName := by
  unfold ofLong?
  cases o <;> split <;> simp_all [longName]

theorem Flag.takesFile_opt (f : Flag) : f.opt.takesFile = false := by
  cases f <;> rfl

theorem FileOption.takesFile_opt (o : FileOption) : o.opt.takesFile = true := by
  cases o <;> rfl

/-- An option with a file is one of those that have one. -/
theorem Opt.exists_file_of_takesFile {o : Opt} (h : o.takesFile = true) : ∃ o' : FileOption, o = o'.opt := by
  cases o with
  | data => exact ⟨.data, rfl⟩
  | grammar => exact ⟨.grammar, rfl⟩
  | tree => cases h
  | debug => cases h
  | help => cases h
  | version => cases h

namespace Draft

variable {d d' : Draft} {o : Opt} {argument name : String}

/-- An option without a value that is taken in is one that stands alone. -/
theorem exists_flag_of_withFlag (h : d.withFlag o = .ok d') : ∃ f : Flag, o = f.opt := by
  cases o with
  | tree => exact ⟨.tree, rfl⟩
  | debug => exact ⟨.debug, rfl⟩
  | data => cases h
  | grammar => cases h
  | help => cases h
  | version => cases h

theorem ne_empty_of_withFile (h : d.withFile o name = .ok d') : name ≠ "" := by
  rintro rfl
  cases h

/-- An option with a value that is taken in is one that has a file. -/
theorem exists_file_of_withFile (h : d.withFile o name = .ok d') : ∃ o' : FileOption, o = o'.opt := by
  unfold withFile at h
  split at h
  · cases h
  · cases o with
    | data => exact ⟨.data, rfl⟩
    | grammar => exact ⟨.grammar, rfl⟩
    | tree => cases h
    | debug => cases h
    | help => cases h
    | version => cases h

/-! ## One argument taken in -/

theorem withArgument_of_standsAlone (h : StandsAlone argument) :
    d.withArgument argument = (d.withExpression argument).map (·, none) := by
  unfold withArgument
  split
  · rename_i body hlist
    exact absurd hlist (standsAlone_iff.1 h '-' body)
  · rename_i c cs _ hlist
    exact absurd hlist (standsAlone_iff.1 h c cs)
  · rfl

theorem withArgument_long (body : List Char) :
    d.withArgument ("--" ++ String.ofList body) = d.withLong body := by
  have hlist : ("--" ++ String.ofList body).toList = '-' :: '-' :: body := by simp
  rw [withArgument, hlist]
  rfl

theorem withArgument_letters {c : Char} (hc : c ≠ '-') (cs : List Char) :
    d.withArgument (String.ofList ('-' :: c :: cs)) = d.withLetters (c :: cs) := by
  rw [withArgument, String.toList_ofList]
  split
  · rename_i hlist
    cases hlist
    exact absurd rfl hc
  · rename_i hlist
    cases hlist
    rfl
  · rename_i hlist
    exact absurd rfl (hlist c cs)

theorem withLong_awaited (o : FileOption) : d.withLong o.opt.longName.toList = .ok (d, some o.opt) := by
  cases o <;> rfl

theorem withLong_flag (f : Flag) : d.withLong f.opt.longName.toList = (d.withFlag f.opt).map (·, none) := by
  cases f <;> rfl

theorem withLong_file (o : FileOption) (value : List Char) :
    d.withLong (o.opt.longName.toList ++ '=' :: value) =
      (d.withFile o.opt (String.ofList value)).map (·, none) := by
  cases o <;> rfl

theorem withLetters_flags (fs : List Flag) (rest : List Char) (d : Draft) :
    d.withLetters (fs.map (·.opt.letter) ++ rest) =
      (fs.map Item.flag).foldlM take d >>= (·.withLetters rest) := by
  induction fs generalizing d with
  | nil => rfl
  | cons f fs ih =>
    rw [List.map_cons, List.cons_append, withLetters, Opt.ofLetter?_eq_some_iff.2 rfl]
    simp only [f.takesFile_opt, Bool.false_eq_true, if_false, List.map_cons, List.foldlM_cons]
    show _ = ((d.withFlag f.opt) >>= _) >>= _
    cases d.withFlag f.opt with
    | ok d' => exact ih d'
    | error e => rfl

theorem withLetters_file {o : FileOption} {value : List Char} (hne : value ≠ [])
    (hhead : value.head? ≠ some '=') :
    d.withLetters (o.opt.letter :: value) = (d.withFile o.opt (String.ofList value)).map (·, none) := by
  rw [withLetters, Opt.ofLetter?_eq_some_iff.2 rfl]
  simp only [o.takesFile_opt, if_true]
  split
  · exact absurd rfl hne
  · exact absurd rfl hhead
  · rfl

theorem withLetters_equals (o : FileOption) (value : List Char) :
    d.withLetters (o.opt.letter :: '=' :: value) =
      (d.withFile o.opt (String.ofList value)).map (·, none) := by
  cases o <;> rfl

theorem withArgument_group (fs : List Flag) {rest : List Char} (hne : fs ≠ [] ∨ rest ≠ [])
    (hhead : rest.head? ≠ some '-') (d : Draft) :
    d.withArgument (group fs rest) = (fs.map Item.flag).foldlM take d >>= (·.withLetters rest) := by
  rw [← withLetters_flags]
  cases fs with
  | nil =>
    cases rest with
    | nil => simp at hne
    | cons c cs =>
      refine withArgument_letters ?_ cs
      rintro rfl
      exact hhead rfl
  | cons f fs =>
    refine withArgument_letters ?_ _
    cases f <;> decide

end Draft

open Draft

/-- What an argument says is taken in item by item, and its last option may be left to wait. -/
theorem Spells.withArgument_eq {argument : String} {items : List Item} {o : Option FileOption}
    (h : Spells argument items o) (d : Draft) :
    d.withArgument argument =
      items.foldlM take d >>= fun d' => .ok (d', o.map FileOption.opt) := by
  have hsingle : ∀ (item : Item) (d : Draft), (d.take item).map (·, (none : Option Opt)) =
      [item].foldlM take d >>= fun d' => .ok (d', none) := by
    intro item d
    rw [List.foldlM_cons]
    cases d.take item <;> rfl
  have hletter : ∀ (o : FileOption) (more : List Char), (o.opt.letter :: more).head? ≠ some '-' := by
    intro o more
    cases o <;> simp [FileOption.opt, Opt.letter]
  cases h with
  | expression alone =>
    rw [withArgument_of_standsAlone alone]
    exact hsingle (.expression argument) d
  | flag f =>
    rw [← @String.ofList_toList f.opt.longName, withArgument_long, withLong_flag]
    exact hsingle (.flag f) d
  | @file o name named =>
    have hargument : "--" ++ o.opt.longName ++ "=" ++ name =
        "--" ++ String.ofList (o.opt.longName.toList ++ '=' :: name.toList) := by
      simp [← String.toList_inj]
    rw [hargument, withArgument_long, withLong_file, String.ofList_toList]
    exact hsingle (.file o name named) d
  | awaited o =>
    rw [← @String.ofList_toList o.opt.longName, withArgument_long, withLong_awaited]
    rfl
  | @letters fs hne =>
    rw [withArgument_group fs (.inl hne) (by simp)]
    rfl
  | @lettersFile fs o name named head =>
    have hne : name.toList ≠ [] := by simpa using named
    rw [withArgument_group fs (.inr (List.cons_ne_nil _ _)) (hletter o _), List.foldlM_append, bind_assoc]
    refine bind_congr fun d' => ?_
    rw [withLetters_file hne head, String.ofList_toList]
    exact hsingle (.file o name named) d'
  | @lettersEquals fs o name named =>
    rw [withArgument_group fs (.inr (List.cons_ne_nil _ _)) (hletter o _), List.foldlM_append, bind_assoc]
    refine bind_congr fun d' => ?_
    rw [withLetters_equals, String.ofList_toList]
    exact hsingle (.file o name named) d'
  | lettersAwaited fs o =>
    rw [withArgument_group fs (.inr (List.cons_ne_nil _ _)) (hletter o _)]
    refine bind_congr fun d' => ?_
    cases o <;> rfl

/-! ## All arguments taken in -/

/-- The end of the options says nothing: it is refused as an option that is not known, and items are refused
for other reasons. -/
theorem Spells.ne_hyphens {argument : String} {items : List Item} {o : Option FileOption}
    (h : Spells argument items o) : argument ≠ "--" := by
  rintro rfl
  have hrefused : ({} : Draft).withArgument "--" = .error (.misuse (.unknownOption "--")) := rfl
  rw [h.withArgument_eq, except_bind_eq_error_iff] at hrefused
  rcases hrefused with hfold | ⟨d, -, hpure⟩
  · obtain ⟨item, -, d, htake⟩ := exists_of_foldlM_eq_error hfold
    exact take_ne_unknownOption htake
  · cases hpure

/-- What a command line says is taken in item by item. -/
theorem Says.withArguments_eq {arguments : List String} {items : List Item} (h : Says arguments items)
    (d : Draft) : d.withArguments none arguments = items.foldlM take d := by
  induction h generalizing d with
  | nil => rfl
  | expressions texts =>
    rw [withArguments, if_pos rfl, List.foldlM_map]
    rfl
  | @cons argument rest items more spelled _ ih =>
    rw [withArguments, if_neg spelled.ne_hyphens, spelled.withArgument_eq, List.foldlM_append]
    cases items.foldlM take d with
    | error e => rfl
    | ok d' => exact ih d'
  | @consFile argument name rest items more o spelled named alone _ ih =>
    have halone : ¬(name.toList.head? = some '-' ∧ name ≠ "-") := by
      rintro ⟨hhead, hname⟩
      exact alone.elim (absurd hhead) hname
    rw [withArguments, if_neg spelled.ne_hyphens, spelled.withArgument_eq, List.foldlM_append]
    cases items.foldlM take d with
    | error e => rfl
    | ok d' =>
      show d'.withArguments (some o.opt) (name :: rest) = (d'.withFile o.opt name) >>= _
      rw [withArguments, if_neg halone]
      cases d'.withFile o.opt name with
      | error e => rfl
      | ok d'' => exact ih d''

/-! ## Nothing else is accepted -/

section Accepted

variable {d d' : Draft} {awaited : Option Opt}

theorem map_none_eq_ok_iff {x : Except Interrupt Draft} :
    x.map (·, (none : Option Opt)) = .ok (d', awaited) ↔ x = .ok d' ∧ awaited = none := by
  cases x <;> simp [Except.map, eq_comm]

theorem exists_spells_of_fileLetter {fs : List Flag} {o : FileOption} {rest : List Char}
    (h : d.withLetters (o.opt.letter :: rest) = .ok (d', awaited)) :
    ∃ items o', awaited = o'.map FileOption.opt ∧ Spells (group fs (o.opt.letter :: rest)) items o' := by
  rw [withLetters, Opt.ofLetter?_eq_some_iff.2 rfl] at h
  simp only [o.takesFile_opt, if_true] at h
  split at h
  · cases h
    exact ⟨_, some o, rfl, .lettersAwaited fs o⟩
  · obtain ⟨htaken, rfl⟩ := map_none_eq_ok_iff.1 h
    have hspells := Spells.lettersEquals fs o (ne_empty_of_withFile htaken)
    rw [String.toList_ofList] at hspells
    exact ⟨_, none, rfl, hspells⟩
  · rename_i hequals
    obtain ⟨htaken, rfl⟩ := map_none_eq_ok_iff.1 h
    have hhead : (String.ofList rest).toList.head? ≠ some '=' := by
      rw [String.toList_ofList]
      intro hhead
      obtain ⟨value, rfl⟩ := List.head?_eq_some_iff.1 hhead
      exact hequals value rfl
    have hspells := Spells.lettersFile fs o (ne_empty_of_withFile htaken) hhead
    rw [String.toList_ofList] at hspells
    exact ⟨_, none, rfl, hspells⟩

/-- The letters of `fs` are those that have been taken in. -/
theorem exists_spells_of_withLetters {fs : List Flag} {cs : List Char} (hne : fs ≠ [] ∨ cs ≠ [])
    (h : d.withLetters cs = .ok (d', awaited)) :
    ∃ items o, awaited = o.map FileOption.opt ∧ Spells (group fs cs) items o := by
  induction cs generalizing fs d with
  | nil =>
    cases h
    exact ⟨_, none, rfl, .letters (by simpa using hne)⟩
  | cons c rest ih =>
    cases hletter : Opt.ofLetter? c with
    | none =>
      rw [withLetters, hletter] at h
      cases h
    | some o =>
      obtain rfl := Opt.ofLetter?_eq_some_iff.1 hletter
      cases hfile : o.takesFile with
      | true =>
        obtain ⟨o', rfl⟩ := Opt.exists_file_of_takesFile hfile
        exact exists_spells_of_fileLetter h
      | false =>
        simp only [withLetters, hletter, hfile, Bool.false_eq_true, if_false] at h
        cases hflag : d.withFlag o with
        | error e =>
          rw [hflag] at h
          cases h
        | ok next =>
          -- the letter joins those in front of it
          rw [hflag] at h
          obtain ⟨f, rfl⟩ := exists_flag_of_withFlag hflag
          have hgroup : group fs (f.opt.letter :: rest) = group (fs ++ [f]) rest := by simp [group]
          rw [hgroup]
          exact ih (.inl (by simp)) h

theorem exists_spells_of_withLong {body : List Char} (h : d.withLong body = .ok (d', awaited)) :
    ∃ items o, awaited = o.map FileOption.opt ∧ Spells ("--" ++ String.ofList body) items o := by
  have hbody : body = body.takeWhile (· ≠ '=') ++ body.dropWhile (· ≠ '=') :=
    List.takeWhile_append_dropWhile.symm
  rw [withLong] at h
  cases hlong : Opt.ofLong? (String.ofList (body.takeWhile (· ≠ '='))) with
  | none =>
    rw [hlong] at h
    cases h
  | some o =>
    rw [hlong] at h
    have hname := Opt.ofLong?_eq_some_iff.1 hlong
    cases hvalue : body.dropWhile (· ≠ '=') with
    | nil =>
      rw [hvalue, List.append_nil] at hbody
      rw [hbody, hname]
      simp only [hvalue] at h
      split at h
      · rename_i hfile
        obtain ⟨o', rfl⟩ := Opt.exists_file_of_takesFile hfile
        cases h
        exact ⟨_, some o', rfl, .awaited o'⟩
      · obtain ⟨htaken, rfl⟩ := map_none_eq_ok_iff.1 h
        obtain ⟨f, rfl⟩ := exists_flag_of_withFlag htaken
        exact ⟨_, none, rfl, .flag f⟩
    | cons c value =>
      obtain rfl : c = '=' := by
        have hstop := List.head?_dropWhile_not (· ≠ '=') body
        rw [hvalue] at hstop
        simpa using hstop
      rw [hvalue] at hbody
      simp only [hvalue] at h
      obtain ⟨htaken, rfl⟩ := map_none_eq_ok_iff.1 h
      obtain ⟨o', rfl⟩ := exists_file_of_withFile htaken
      have hargument : "--" ++ String.ofList body = "--" ++ o'.opt.longName ++ "=" ++ String.ofList value := by
        rw [hbody, ← hname]
        simp [← String.toList_inj]
      rw [hargument]
      exact ⟨_, none, rfl, .file o' (ne_empty_of_withFile htaken)⟩

/-- An argument that is taken in says something. -/
theorem exists_spells {argument : String} (h : d.withArgument argument = .ok (d', awaited)) :
    ∃ items o, awaited = o.map FileOption.opt ∧ Spells argument items o := by
  unfold withArgument at h
  split at h
  · rename_i body hlist
    have hargument : argument = "--" ++ String.ofList body := by
      simp [← String.toList_inj, hlist]
    rw [hargument]
    exact exists_spells_of_withLong h
  · rename_i c letters _ hlist
    have hargument : argument = group [] (c :: letters) := by
      simp [← String.toList_inj, group, hlist]
    rw [hargument]
    exact exists_spells_of_withLetters (.inr (List.cons_ne_nil c letters)) h
  · rename_i hletters
    obtain ⟨-, rfl⟩ := map_none_eq_ok_iff.1 h
    exact ⟨_, none, rfl, .expression (standsAlone_iff.2 hletters)⟩

/-- Arguments that are taken in say something; if an option waits for its file, the first of them is this file. -/
theorem exists_says_of_withArguments {arguments : List String} :
    (∀ {d d' : Draft}, d.withArguments none arguments = .ok d' → ∃ items, Says arguments items) ∧
    ∀ {d d' : Draft} {o : FileOption}, d.withArguments (some o.opt) arguments = .ok d' →
      ∃ name rest items, arguments = name :: rest ∧ name ≠ "" ∧ StandsAlone name ∧ Says rest items := by
  induction arguments with
  | nil =>
    refine ⟨fun _ => ⟨[], .nil⟩, ?_⟩
    intro d d' o h
    cases h
  | cons argument rest ih =>
    obtain ⟨ihnone, ihsome⟩ := ih
    constructor
    · intro d d' h
      rw [withArguments] at h
      split at h
      · rename_i hend
        rw [hend]
        exact ⟨_, .expressions rest⟩
      · split at h
        · rename_i next awaited hargument
          obtain ⟨items, o, rfl, hspells⟩ := exists_spells hargument
          cases o with
          | none =>
            obtain ⟨more, hmore⟩ := ihnone h
            exact ⟨_, .cons hspells hmore⟩
          | some o =>
            obtain ⟨name, rest, more, rfl, named, halone, hmore⟩ := ihsome h
            exact ⟨_, .consFile hspells named halone hmore⟩
        · cases h
    · intro d d' o h
      rw [withArguments] at h
      split at h
      · cases h
      · rename_i halone
        split at h
        · rename_i next hfile
          obtain ⟨items, hitems⟩ := ihnone h
          refine ⟨argument, rest, items, rfl, ne_empty_of_withFile hfile, ?_, hitems⟩
          rwa [not_and_or, not_not] at halone
        · cases h

end Accepted

/-! ## Requests -/

namespace Request

variable {arguments : List String} {items : List Item} {r : Request}

theorem ofArguments_eq_ok_iff_of_says (h : Says arguments items) :
    ofArguments arguments = .ok r ↔ r.draft.MadeOf items := by
  rw [ofArguments, except_bind_eq_ok_iff, h.withArguments_eq]
  constructor
  · rintro ⟨d, hd, hfinish⟩
    obtain rfl := finish_eq_ok_iff.1 hfinish
    exact foldlM_take_eq_ok_iff.1 hd
  · intro hmade
    exact ⟨r.draft, foldlM_take_eq_ok_iff.2 hmade, finish_eq_ok_iff.2 rfl⟩

/-- Letters may be joined, and behind `--` a hyphen is nothing special. -/
example : ofArguments ["-tD=d.json", "--", "-1"] =
    .ok { expression := "-1", data := some "d.json", treeOnly := true } := by rfl

theorem exists_says_of_ofArguments (h : ofArguments arguments = .ok r) : ∃ items, Says arguments items := by
  obtain ⟨d, hd, -⟩ := except_bind_eq_ok_iff.1 h
  exact exists_says_of_withArguments.1 hd

end Request

end FilterLang.Command
