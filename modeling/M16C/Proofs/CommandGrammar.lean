import Mathlib.Data.List.Induction
import Mathlib.Data.List.Perm.Basic
import Mathlib.Tactic.SplitIfs
import M16C.CommandLine

/-!
The grammar of command lines and the reader that decides it. Arguments fall into
items: an option, an option with the base behind it, or the path of an input. The
word behind `-b` belongs to its item whatever it looks like, so that items are
found from the left only. Reading keeps an input and options, which are what the
items read so far say; help ends it, and so does the first argument that starts
no item. What is asked for therefore depends on which items there are, on the
order of the bases among them, and on nothing else.
-/

namespace M16C.CommandLine

/-- The words of an option. -/
def Switch.words : Switch → List RawArgument
  | .help => [Text.ascii "-h", Text.ascii "--help"]
  | .noSuffix => [Text.ascii "--no-suffix"]
  | .il => [Text.ascii "--il"]
  | .base => [Text.ascii "-b", Text.ascii "--base"]

/-- A unit of the command line that is not help. -/
inductive Item where
  | noSuffix
  | il
  | base (word value : RawArgument) (address : Address) (hword : word ∈ Switch.base.words)
      (hvalue : AddressText.parse (Text.lossy value) = .ok address)
  | input (path : RawArgument) (hpath : (Text.lossy path).toList.head? ≠ some '-')

namespace Item

/-- The arguments that the item is written as. -/
def arguments : Item → List RawArgument
  | .noSuffix => [Text.ascii "--no-suffix"]
  | .il => [Text.ascii "--il"]
  | .base word value _ _ _ => [word, value]
  | .input path _ => [path]

def input? : Item → Option RawArgument
  | .input path _ => some path
  | .noSuffix | .il | .base .. => none

def base? : Item → Option Address
  | .base _ _ address _ _ => some address
  | .noSuffix | .il | .input .. => none

/-- What reading the item does to the options. -/
def configure (item : Item) (options : ListingOptions) : ListingOptions :=
  match item with
  | .noSuffix => { options with display := { showSuffix := false } }
  | .il => { options with il := true }
  | .base _ _ address _ _ => { options with base := address }
  | .input .. => options

/-- The arguments of items one after the other. -/
def spell (items : List Item) : List RawArgument := items.flatMap arguments

/-- The inputs among items, in order. -/
def inputs (items : List Item) : List RawArgument := items.filterMap input?

/-- The bases among items, in order. -/
def bases (items : List Item) : List Address := items.filterMap base?

/-- The options that items ask for: the last base wins, and other options count
once however often they stand there. -/
structure Configures (items : List Item) (options : ListingOptions) : Prop where
  base_eq : options.base = (bases items).getLast?.getD 0
  showSuffix_eq_false_iff : options.display.showSuffix = false ↔ Item.noSuffix ∈ items
  il_eq_true_iff : options.il = true ↔ Item.il ∈ items

theorem Configures.unique {items : List Item} {options other : ListingOptions}
    (h : Configures items options) (hother : Configures items other) : options = other := by
  obtain ⟨base, ⟨showSuffix⟩, il⟩ := options
  obtain ⟨otherBase, ⟨otherSuffix⟩, otherIl⟩ := other
  have hbase : base = otherBase := h.base_eq.trans hother.base_eq.symm
  have hsuffix : showSuffix = otherSuffix := by
    have hiff := h.showSuffix_eq_false_iff.trans hother.showSuffix_eq_false_iff.symm
    cases showSuffix <;> cases otherSuffix <;> simp_all
  have hil : il = otherIl :=
    Bool.eq_iff_iff.mpr (h.il_eq_true_iff.trans hother.il_eq_true_iff.symm)
  rw [hbase, hsuffix, hil]

theorem arguments_ne_nil (item : Item) : item.arguments ≠ [] := by
  cases item <;> simp [arguments]

theorem spell_cons_append (item : Item) (items : List Item) (rest : List RawArgument) :
    spell (item :: items) ++ rest = item.arguments ++ (spell items ++ rest) := by
  rw [spell, List.flatMap_cons, List.append_assoc, ← spell]

theorem inputs_append_cons (first : List Item) (item : Item) (second : List Item) :
    inputs (first ++ item :: second) = inputs first ++ (item.input?.toList ++ inputs second) := by
  rw [inputs, List.filterMap_append, List.filterMap_cons]
  cases item.input? <;> rfl

/-- The options of no items are the defaults. -/
theorem configures_nil : Configures [] {} :=
  ⟨rfl, by simp, by simp⟩

theorem Configures.concat {items : List Item} {options : ListingOptions}
    (h : Configures items options) (item : Item) :
    Configures (items ++ [item]) (item.configure options) := by
  have hbase := h.base_eq
  have hsuffix := h.showSuffix_eq_false_iff
  have hil := h.il_eq_true_iff
  cases item <;> constructor <;> simp_all [configure, bases, base?]

end Item

theorem Switch.ofArgument?_eq_some_iff (argument : RawArgument) (switch : Switch) :
    ofArgument? argument = some switch ↔ argument ∈ switch.words := by
  constructor
  · intro h
    unfold ofArgument? at h
    split_ifs at h with hhelp hsuffix hil hbase
    · cases h
      simpa [words] using hhelp.symm
    · cases h
      simpa [words] using hsuffix
    · cases h
      simpa [words] using hil
    · cases h
      simpa [words] using hbase
  · have hwords : switch.words.all (fun word => ofArgument? word = some switch) = true := by
      cases switch <;> rfl
    intro h
    exact of_decide_eq_true (List.all_eq_true.mp hwords argument h)

theorem looksLikeOption_iff (argument : RawArgument) :
    looksLikeOption argument = true ↔ (Text.lossy argument).toList.head? = some '-' := by
  simp [looksLikeOption]

/-- Every word of an option looks like one, so no input is taken for an option. -/
theorem Switch.looksLikeOption_of_mem_words {switch : Switch} {word : RawArgument}
    (h : word ∈ switch.words) : looksLikeOption word = true := by
  have hwords : switch.words.all looksLikeOption = true := by
    cases switch <;> rfl
  exact List.all_eq_true.mp hwords word h

theorem Switch.ofArgument?_eq_none {argument : RawArgument}
    (h : (Text.lossy argument).toList.head? ≠ some '-') : ofArgument? argument = none := by
  rw [Option.eq_none_iff_forall_ne_some]
  intro switch hswitch
  have hword := (ofArgument?_eq_some_iff argument switch).mp hswitch
  exact h ((looksLikeOption_iff argument).mp (looksLikeOption_of_mem_words hword))

open Item (spell inputs bases Configures)

theorem parseFrom_help {word : RawArgument} (hword : word ∈ Switch.help.words)
    (input : Option RawArgument) (options : ListingOptions) (rest : List RawArgument) :
    parseFrom input options (word :: rest) = .ok .help := by
  have hswitch := (Switch.ofArgument?_eq_some_iff word .help).mpr hword
  rw [parseFrom.eq_def]
  simp only [hswitch]

/-- Reading one item. An input is taken when there is none yet. -/
theorem parseFrom_item (item : Item) {input : Option RawArgument} (options : ListingOptions)
    (hfree : item.input? = none ∨ input = none) (rest : List RawArgument) :
    parseFrom input options (item.arguments ++ rest) =
      parseFrom (input.or item.input?) (item.configure options) rest := by
  rw [parseFrom.eq_def]
  cases item with
  | noSuffix =>
      have hswitch := (Switch.ofArgument?_eq_some_iff (Text.ascii "--no-suffix") .noSuffix).mpr
        (List.mem_singleton.mpr rfl)
      simp only [Item.arguments, List.cons_append, List.nil_append, hswitch, Item.input?,
        Option.or_none, Item.configure]
  | il =>
      have hswitch := (Switch.ofArgument?_eq_some_iff (Text.ascii "--il") .il).mpr
        (List.mem_singleton.mpr rfl)
      simp only [Item.arguments, List.cons_append, List.nil_append, hswitch, Item.input?,
        Option.or_none, Item.configure]
  | base word value address hword hvalue =>
      have hswitch := (Switch.ofArgument?_eq_some_iff word .base).mpr hword
      simp only [Item.arguments, List.cons_append, List.nil_append, hswitch, hvalue, Item.input?,
        Option.or_none, Item.configure]
  | input path hpath =>
      have hswitch := Switch.ofArgument?_eq_none hpath
      have hplain := mt (looksLikeOption_iff path).mp hpath
      have hnone : input = none := hfree.resolve_left (by simp [Item.input?])
      simp only [Item.arguments, List.cons_append, List.nil_append, hswitch, if_neg hplain, hnone,
        Item.input?, Option.none_or, Item.configure]

theorem parseFrom_second_input {path : RawArgument}
    (hpath : (Text.lossy path).toList.head? ≠ some '-') (earlier : RawArgument)
    (options : ListingOptions) (rest : List RawArgument) :
    parseFrom (some earlier) options (path :: rest) = .error .multipleInputs := by
  have hswitch := Switch.ofArgument?_eq_none hpath
  have hplain := mt (looksLikeOption_iff path).mp hpath
  rw [parseFrom.eq_def]
  simp only [hswitch, if_neg hplain]

/-- The input and the options that are found when some items have been read. -/
structure Reached (items : List Item) (input : Option RawArgument) (options : ListingOptions) :
    Prop where
  inputs_eq : inputs items = input.toList
  configures : Configures items options

theorem reached_nil : Reached [] none {} := ⟨rfl, Item.configures_nil⟩

theorem Reached.concat {items : List Item} {input : Option RawArgument} {options : ListingOptions}
    (h : Reached items input options) {item : Item} (hfree : item.input? = none ∨ input = none) :
    Reached (items ++ [item]) (input.or item.input?) (item.configure options) := by
  refine ⟨?_, h.configures.concat item⟩
  rw [Item.inputs_append_cons, h.inputs_eq]
  rcases hfree with hnone | rfl
  · simp [hnone, inputs]
  · simp [inputs]

/-- Reading a run of items with at most one input among those read. -/
theorem parseFrom_spell {seen : List Item} {input : Option RawArgument}
    {options : ListingOptions} (h : Reached seen input options) (items : List Item)
    (hone : (inputs (seen ++ items)).length ≤ 1) (rest : List RawArgument) :
    ∃ later configured, Reached (seen ++ items) later configured ∧
      parseFrom input options (spell items ++ rest) = parseFrom later configured rest := by
  induction items generalizing seen input options with
  | nil =>
      rw [List.append_nil]
      exact ⟨input, options, h, rfl⟩
  | cons item items ih =>
      have hfree : item.input? = none ∨ input = none := by
        rw [Item.inputs_append_cons, h.inputs_eq] at hone
        cases hitem : item.input? with
        | none => exact .inl rfl
        | some path =>
            cases input with
            | none => exact .inr rfl
            | some earlier => simp [hitem] at hone
      rw [List.append_cons] at hone ⊢
      obtain ⟨later, configured, hlater, hrest⟩ := ih (h.concat hfree) hone
      refine ⟨later, configured, hlater, ?_⟩
      rw [← hrest, ← parseFrom_item item options hfree, Item.spell_cons_append]

/-- What reading does at an argument when it does not fail: help ends it, and any
other argument starts an item. -/
theorem help_or_item_of_parseFrom {input : Option RawArgument} {options : ListingOptions}
    {argument : RawArgument} {rest : List RawArgument} {request : Request}
    (h : parseFrom input options (argument :: rest) = .ok request) :
    (argument ∈ Switch.help.words ∧ request = .help) ∨
    ∃ item behind, argument :: rest = Item.arguments item ++ behind ∧
      (item.input? = none ∨ input = none) := by
  rw [parseFrom.eq_def] at h
  cases hswitch : Switch.ofArgument? argument with
  | some switch =>
      have hword := (Switch.ofArgument?_eq_some_iff argument switch).mp hswitch
      simp only [hswitch] at h
      cases switch with
      | help =>
          cases h
          exact .inl ⟨hword, rfl⟩
      | noSuffix =>
          cases List.mem_singleton.mp hword
          exact .inr ⟨.noSuffix, rest, rfl, .inl rfl⟩
      | il =>
          cases List.mem_singleton.mp hword
          exact .inr ⟨.il, rest, rfl, .inl rfl⟩
      | base =>
          cases rest with
          | nil => cases h
          | cons value behind =>
              cases hvalue : AddressText.parse (Text.lossy value) with
              | ok address =>
                  exact .inr ⟨.base argument value address hword hvalue, behind, rfl, .inl rfl⟩
              | error cause =>
                  simp only [hvalue] at h
                  cases h
  | none =>
      simp only [hswitch] at h
      split at h
      · cases h
      · next hplain =>
          cases input with
          | some path => cases h
          | none =>
              have hpath := mt (looksLikeOption_iff argument).mpr hplain
              exact .inr ⟨.input argument hpath, rest, rfl, .inr rfl⟩

/-- What is asked for where items end: help, or a listing when no argument is
left and there is one input. -/
inductive Asks (items : List Item) : List RawArgument → Request → Prop
  | help {word : RawArgument} {rest : List RawArgument} (hword : word ∈ Switch.help.words) :
      Asks items (word :: rest) .help
  | disassemble {input : RawArgument} {options : ListingOptions} (hinputs : inputs items = [input])
      (hoptions : Configures items options) :
      Asks items [] (.disassemble input options)

/-- Reading that does not fail goes through items to what they ask for. -/
theorem exists_items_of_parseFrom {input : Option RawArgument} {options : ListingOptions}
    {arguments : List RawArgument} {request : Request}
    (h : parseFrom input options arguments = .ok request) {seen : List Item}
    (hseen : Reached seen input options) :
    ∃ items rest, arguments = spell items ++ rest ∧ (inputs (seen ++ items)).length ≤ 1 ∧
      Asks (seen ++ items) rest request := by
  induction hlength : arguments.length using Nat.strongRecOn
    generalizing arguments input options seen with
  | ind length ih =>
      have hone : (inputs seen).length ≤ 1 := by
        rw [hseen.inputs_eq]
        cases input <;> simp
      cases arguments with
      | nil =>
          cases input with
          | none => cases h
          | some path =>
              cases h
              refine ⟨[], [], rfl, ?_, ?_⟩
              · rwa [List.append_nil]
              · rw [List.append_nil]
                exact .disassemble hseen.inputs_eq hseen.configures
      | cons argument rest =>
          rcases help_or_item_of_parseFrom h with ⟨hword, rfl⟩ | ⟨item, behind, hsplit, hfree⟩
          · refine ⟨[], argument :: rest, rfl, ?_, .help hword⟩
            rwa [List.append_nil]
          · have hshorter : behind.length < length := by
              have hpositive := List.length_pos_iff.mpr item.arguments_ne_nil
              rw [hsplit, List.length_append] at hlength
              omega
            rw [hsplit, parseFrom_item item options hfree] at h
            obtain ⟨items, last, hbehind, hcount, hasks⟩ :=
              ih _ hshorter h (hseen.concat hfree) rfl
            rw [← List.append_cons] at hcount hasks
            refine ⟨item :: items, last, ?_, hcount, hasks⟩
            rw [hsplit, hbehind, Item.spell_cons_append]

/-- A second input is refused, whatever follows. -/
theorem parseFrom_spell_of_two {seen : List Item} {input : Option RawArgument}
    {options : ListingOptions} (h : Reached seen input options) (items : List Item)
    (htwo : 1 < (inputs (seen ++ items)).length) (rest : List RawArgument) :
    parseFrom input options (spell items ++ rest) = .error .multipleInputs := by
  induction items generalizing seen input options with
  | nil =>
      rw [List.append_nil, h.inputs_eq] at htwo
      cases input <;> simp at htwo
  | cons item items ih =>
      rw [Item.spell_cons_append]
      by_cases hfree : item.input? = none ∨ input = none
      · rw [parseFrom_item item options hfree]
        rw [List.append_cons] at htwo
        exact ih (h.concat hfree) htwo
      · obtain ⟨hitem, hinput⟩ := not_or.mp hfree
        obtain ⟨earlier, rfl⟩ := Option.ne_none_iff_exists'.mp hinput
        cases item with
        | noSuffix | il | base => exact absurd rfl hitem
        | input path hpath => exact parseFrom_second_input hpath earlier options _

/-- Items ask for a listing when there is one input among them. -/
theorem parse_spell_eq_ok_iff (items : List Item) (input : RawArgument)
    (options : ListingOptions) :
    parse (spell items) = .ok (.disassemble input options) ↔
      inputs items = [input] ∧ Configures items options := by
  by_cases hone : (inputs items).length ≤ 1
  · obtain ⟨later, configured, hreached, hread⟩ := parseFrom_spell reached_nil items hone []
    rw [List.append_nil] at hread
    have hinputs : inputs items = later.toList := hreached.inputs_eq
    have hconfigures : Configures items configured := hreached.configures
    rw [parse, hread, hinputs]
    cases later with
    | none => simp [parseFrom]
    | some path =>
        simp only [parseFrom, Except.ok.injEq, Request.disassemble.injEq, Option.toList_some,
          List.cons.injEq, and_true]
        constructor
        · rintro ⟨rfl, rfl⟩
          exact ⟨rfl, hconfigures⟩
        · rintro ⟨rfl, hoptions⟩
          exact ⟨rfl, hconfigures.unique hoptions⟩
  · have hrefused := parseFrom_spell_of_two reached_nil items (Nat.lt_of_not_le hone) []
    rw [List.append_nil] at hrefused
    rw [parse, hrefused]
    constructor
    · intro h
      cases h
    · rintro ⟨hinputs, _⟩
      rw [hinputs] at hone
      exact absurd (Nat.le_refl 1) hone

theorem parse_eq_help_iff (arguments : List RawArgument) :
    parse arguments = .ok .help ↔
      ∃ items word rest, arguments = spell items ++ word :: rest ∧ (inputs items).length ≤ 1 ∧
        word ∈ Switch.help.words := by
  constructor
  · intro h
    obtain ⟨items, rest, hsplit, hone, hasks⟩ := exists_items_of_parseFrom h reached_nil
    cases hasks with
    | help hword => exact ⟨items, _, _, hsplit, hone, hword⟩
  · rintro ⟨items, word, rest, rfl, hone, hword⟩
    obtain ⟨input, options, _, hread⟩ := parseFrom_spell reached_nil items hone (word :: rest)
    rw [parse, hread]
    exact parseFrom_help hword input options rest

theorem parse_eq_disassemble_iff (arguments : List RawArgument) (input : RawArgument)
    (options : ListingOptions) :
    parse arguments = .ok (.disassemble input options) ↔
      ∃ items, arguments = spell items ∧ inputs items = [input] ∧ Configures items options := by
  constructor
  · intro h
    obtain ⟨items, rest, hsplit, _, hasks⟩ := exists_items_of_parseFrom h reached_nil
    cases hasks with
    | disassemble hinputs hoptions =>
        rw [List.append_nil] at hsplit
        exact ⟨items, hsplit, hinputs, hoptions⟩
  · rintro ⟨items, rfl, hask⟩
    exact (parse_spell_eq_ok_iff items input options).mpr hask

theorem Item.exists_configures (items : List Item) : ∃ options, Configures items options := by
  induction items using List.reverseRecOn with
  | nil => exact ⟨{}, configures_nil⟩
  | append_singleton items item ih =>
      obtain ⟨options, h⟩ := ih
      exact ⟨_, h.concat item⟩

/-- Items in another order ask for the same options when the bases keep theirs. -/
theorem Item.Configures.perm {items reordered : List Item} {options : ListingOptions}
    (h : Configures items options) (hperm : items.Perm reordered)
    (hbases : bases items = bases reordered) : Configures reordered options where
  base_eq := by rw [h.base_eq, hbases]
  showSuffix_eq_false_iff := h.showSuffix_eq_false_iff.trans hperm.mem_iff
  il_eq_true_iff := h.il_eq_true_iff.trans hperm.mem_iff

/-- The reader accepts the grammar and nothing else. It answers with help exactly
for items with at most one input and a word for help behind them, and asks for a
listing exactly when all arguments are items with one input: of that input, and
with the options that the items say. All other arguments are refused. Items in
another order ask for the same listing, when the bases keep theirs. -/
theorem parse_accepts_commands (arguments : List RawArgument) :
    (parse arguments = .ok .help ↔
      ∃ items word rest, arguments = spell items ++ word :: rest ∧ (inputs items).length ≤ 1 ∧
        (word = Text.ascii "-h" ∨ word = Text.ascii "--help")) ∧
    (∀ input options, parse arguments = .ok (.disassemble input options) ↔
      ∃ items, arguments = spell items ∧ inputs items = [input] ∧
        options.base = (bases items).getLast?.getD 0 ∧
        (options.display.showSuffix = false ↔ Item.noSuffix ∈ items) ∧
        (options.il = true ↔ Item.il ∈ items)) ∧
    ((∃ error, parse arguments = .error error) ↔
      (¬ ∃ items word rest, arguments = spell items ++ word :: rest ∧ (inputs items).length ≤ 1 ∧
        (word = Text.ascii "-h" ∨ word = Text.ascii "--help")) ∧
      ¬ ∃ items input, arguments = spell items ∧ inputs items = [input]) ∧
    ∀ items reordered : List Item, items.Perm reordered → bases items = bases reordered →
      ∀ input options, parse (spell items) = .ok (.disassemble input options) →
        parse (spell reordered) = .ok (.disassemble input options) := by
  have hwords (word : RawArgument) : word ∈ Switch.help.words ↔
      (word = Text.ascii "-h" ∨ word = Text.ascii "--help") := by
    simp [Switch.words]
  have hhelp := parse_eq_help_iff arguments
  simp only [hwords] at hhelp
  refine ⟨hhelp, ?_, ?_, ?_⟩
  · intro input options
    rw [parse_eq_disassemble_iff]
    constructor
    · rintro ⟨items, hspell, hinputs, hoptions⟩
      exact ⟨items, hspell, hinputs, hoptions.base_eq, hoptions.showSuffix_eq_false_iff,
        hoptions.il_eq_true_iff⟩
    · rintro ⟨items, hspell, hinputs, hbase, hsuffix, hil⟩
      exact ⟨items, hspell, hinputs, hbase, hsuffix, hil⟩
  · rw [← hhelp]
    constructor
    · rintro ⟨error, herror⟩
      refine ⟨?_, ?_⟩
      · rw [herror]
        nofun
      · rintro ⟨items, input, hspell, hinputs⟩
        obtain ⟨options, hoptions⟩ := Item.exists_configures items
        have hok := (parse_eq_disassemble_iff arguments input options).mpr
          ⟨items, hspell, hinputs, hoptions⟩
        rw [herror] at hok
        cases hok
    · rintro ⟨hnotHelp, hnotListing⟩
      cases hparse : parse arguments with
      | error error => exact ⟨error, rfl⟩
      | ok request =>
          cases request with
          | help => exact absurd hparse hnotHelp
          | disassemble input options =>
              obtain ⟨items, hspell, hinputs, _⟩ :=
                (parse_eq_disassemble_iff arguments input options).mp hparse
              exact absurd ⟨items, input, hspell, hinputs⟩ hnotListing
  · intro items reordered hperm hbases input options h
    obtain ⟨hinputs, hoptions⟩ := (parse_spell_eq_ok_iff items input options).mp h
    refine (parse_spell_eq_ok_iff reordered input options).mpr ⟨?_, hoptions.perm hperm hbases⟩
    have hsame : (inputs items).Perm (inputs reordered) := hperm.filterMap _
    rw [hinputs] at hsame
    exact (List.singleton_perm.mp hsame).symm

/-- The input in front of two bases and behind them, and help in front of an
option that there is not. -/
theorem parse_accepts_commands_moved :
    let rom := Text.ascii "rom.bin"
    let first : Item := .base (Text.ascii "-b") (Text.ascii "0x10") 16 (by decide) (by rfl)
    let second : Item := .base (Text.ascii "--base") (Text.ascii "+32") 32 (by decide) (by rfl)
    let input : Item := .input rom (by decide)
    let options : ListingOptions := { base := 32, display := { showSuffix := false } }
    parse (spell [input, first, .noSuffix, second]) = .ok (.disassemble rom options) ∧
      parse (spell [first, .noSuffix, second, input]) = .ok (.disassemble rom options) ∧
      parse (spell [first] ++ [Text.ascii "-h", Text.ascii "-x"]) = .ok .help := by
  intro rom first second input options
  have hsuffix : Item.noSuffix ∈ [input, first, .noSuffix, second] := by simp
  have hil : Item.il ∉ [input, first, .noSuffix, second] := by simp [input, first, second]
  obtain ⟨_, hlisting, _, _⟩ := parse_accepts_commands (spell [input, first, .noSuffix, second])
  have hread := (hlisting rom options).mpr
    ⟨_, rfl, rfl, rfl, iff_of_true rfl hsuffix, iff_of_false Bool.false_ne_true hil⟩
  obtain ⟨hhelp, _, _, hmoved⟩ :=
    parse_accepts_commands (spell [first] ++ [Text.ascii "-h", Text.ascii "-x"])
  refine ⟨hread, ?_, ?_⟩
  · have hperm := (List.perm_append_singleton input [first, .noSuffix, second]).symm
    exact hmoved _ _ hperm rfl rom options hread
  · exact hhelp.mpr ⟨[first], _, _, rfl, by decide, .inl rfl⟩

end M16C.CommandLine
