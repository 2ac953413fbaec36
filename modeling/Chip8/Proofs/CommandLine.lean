import Chip8.Options
import Chip8.Proofs.Numerals

/-!
This file holds the grammar of the command line. An argument list is divided into items from left to
right, and its options are read off the items. A list that is refused has items before its first
offence, and these keep their effect.
-/

namespace Chip8

open Text

/-- Each setting has a flag of its own and takes a number between two bounds. -/
inductive Setting.Takes : Setting → ByteString → Int → Int → Prop
  | speed : Takes .speed (ascii "--speed") 1 10000
  | scale : Takes .scale (ascii "--scale") 1 64
  | seed : Takes .seed (ascii "--seed") 0 4294967295
  | frames : Takes .frames (ascii "--frames") 1 100000000

/-- An item chooses the textual format, gives a number to a setting, or stands for a path. -/
inductive Item
  | hexText
  | number (setting : Setting) (value : Int)
  | path (name : ByteString)
deriving DecidableEq

namespace Item

/-- The argument behind a flag is its value, whatever it looks like. A path may be empty. -/
inductive Written : Item → List ByteString → Prop
  | hexText : Written .hexText [ascii "--hex"]
  | number {setting : Setting} {flag text : ByteString} {lower upper value : Int}
      (takes : setting.Takes flag lower upper) (denoted : Numeral.Denotes text value)
      (above : lower ≤ value) (below : value ≤ upper) :
      Written (.number setting value) [flag, text]
  | path {name : ByteString} (plain : ¬ ascii "-" <+: name) : Written (.path name) [name]

def path? : Item → Option ByteString
  | .path name => some name
  | _ => none

def value? (wanted : Setting) : Item → Option Int
  | .number setting value => if setting = wanted then some value else none
  | _ => none

def paths (items : List Item) : List ByteString :=
  items.filterMap path?

/-- The last number that is given to a setting counts. -/
def lastValue? (setting : Setting) (items : List Item) : Option Int :=
  (items.filterMap (value? setting)).getLast?

/-- The items stand in front of the arguments in their order, and a rest is left behind them. -/
inductive Leading : List Item → List ByteString → List ByteString → Prop
  | nil {rest : List ByteString} : Leading [] rest rest
  | cons {item : Item} {items : List Item} {spelling arguments rest : List ByteString}
      (written : item.Written spelling) (others : Leading items arguments rest) :
      Leading (item :: items) (spelling ++ arguments) rest

/-- Every path but the last one is empty. -/
def Orderly (items : List Item) : Prop :=
  ∀ name ∈ (paths items).dropLast, name = []

/-- Exactly one of the paths is not empty, and no path follows it. -/
structure Names (items : List Item) (name : ByteString) : Prop where
  single : (paths items).filter (· ≠ []) = [name]
  last : (paths items).getLast? = some name

end Item

/-- These are the effects of the items, and the defaults for what they leave open. -/
def Options.ofItems (items : List Item) : Options where
  romPath := (Item.paths items).getLast?.getD []
  format := if Item.hexText ∈ items then .hexText else .binary
  speed := (Item.lastValue? .speed items).getD 10
  scale := (Item.lastValue? .scale items).getD 10
  seed := (Item.lastValue? .seed items).map fun value => UInt32.ofNat value.toNat
  frames := (Item.lastValue? .frames items).getD 600

namespace Item

/-- What follows the items is an offence, and the message tells which one. -/
inductive Offence (items : List Item) : List ByteString → ByteString → Prop
  | missingPath (absent : ∀ name ∈ paths items, name = []) :
      Offence items [] (ascii "missing ROM path")
  | missingValue {setting : Setting} {flag : ByteString} {lower upper : Int}
      (takes : setting.Takes flag lower upper) :
      Offence items [flag] (flag ++ ascii " needs a value")
  | badValue {setting : Setting} {flag text : ByteString} {lower upper : Int}
      {after : List ByteString} (takes : setting.Takes flag lower upper)
      (bad : ¬ ∃ value, Numeral.Denotes text value ∧ lower ≤ value ∧ value ≤ upper) :
      Offence items (flag :: text :: after)
        (ascii "bad value '" ++ text ++ ascii "' for " ++ flag)
  | unknownOption {argument : ByteString} {after : List ByteString}
      (dashed : ascii "-" <+: argument) (notHexText : argument ≠ ascii "--hex")
      (unlisted : ∀ (setting : Setting) lower upper, ¬ setting.Takes argument lower upper) :
      Offence items (argument :: after) (ascii "unknown option '" ++ argument ++ ascii "'")
  | unexpected {name argument : ByteString} {after : List ByteString}
      (named : name ∈ paths items) (nonempty : name ≠ []) (plain : ¬ ascii "-" <+: argument) :
      Offence items (argument :: after) (ascii "unexpected argument '" ++ argument ++ ascii "'")

end Item

/-- The answer to an argument list is settled by its items. The list is accepted when nothing is
left behind the items and they name a path, and otherwise it is refused at its first offence. -/
structure Options.Settled (arguments : List ByteString)
    (answer : Options × Option ArgumentError) : Prop where
  accepted : answer.2 = none ↔
    ∃ items name, Item.Leading items arguments [] ∧ Item.Names items name
  options : ∀ items name, Item.Leading items arguments [] → Item.Names items name →
    answer.1 = Options.ofItems items ∧ answer.1.romPath = name
  refused : ∀ error, answer.2 = some error →
    ∃ items rest, Item.Leading items arguments rest ∧ Item.Orderly items ∧
      Item.Offence items rest error.message ∧ answer.1 = Options.ofItems items
  refuses : ∀ items rest message, Item.Leading items arguments rest → Item.Orderly items →
    Item.Offence items rest message →
      ∃ error, answer = (Options.ofItems items, some error) ∧ error.message = message

namespace Setting

theorem takes_iff {setting : Setting} {flag : ByteString} {lower upper : Int} :
    setting.Takes flag lower upper ↔
      flag = setting.flag ∧ lower = setting.lower ∧ upper = setting.upper := by
  constructor
  · rintro (_ | _ | _ | _) <;> exact ⟨rfl, rfl, rfl⟩
  · rintro ⟨rfl, rfl, rfl⟩
    cases setting
    · exact .speed
    · exact .scale
    · exact .seed
    · exact .frames

theorem takes_of_ofFlag? {setting : Setting} {argument : ByteString}
    (found : ofFlag? argument = some setting) :
    setting.Takes argument setting.lower setting.upper :=
  takes_iff.mpr ⟨(flag_of_ofFlag? found).symm, rfl, rfl⟩

/-- A number is read exactly when it is written within the bounds. -/
theorem Takes.read?_eq_some_iff {setting : Setting} {flag text : ByteString}
    {lower upper value : Int} (takes : setting.Takes flag lower upper) :
    setting.read? text = some value ↔
      Numeral.Denotes text value ∧ lower ≤ value ∧ value ≤ upper := by
  obtain ⟨-, rfl, rfl⟩ := takes_iff.mp takes
  exact Numeral.within?_eq_some_iff

theorem ofFlag?_flag (setting : Setting) : ofFlag? setting.flag = some setting := by
  cases setting <;> decide

theorem flag_ne_hexFlag (setting : Setting) : setting.flag ≠ hexFlag := by
  cases setting <;> decide

theorem dashed_flag (setting : Setting) : ascii "-" <+: setting.flag := by
  cases setting <;> decide

theorem ofFlag?_of_plain {argument : ByteString} (plain : ¬ ascii "-" <+: argument) :
    ofFlag? argument = none := by
  cases found : ofFlag? argument with
  | none => rfl
  | some setting => exact absurd (flag_of_ofFlag? found ▸ setting.dashed_flag) plain

end Setting

theorem ne_hexFlag_of_plain {argument : ByteString} (plain : ¬ ascii "-" <+: argument) :
    argument ≠ hexFlag := by
  rintro rfl
  exact plain (by decide)

theorem head?_eq_dash_iff {argument : ByteString} :
    (argument.head? == some 0x2D) = true ↔ ascii "-" <+: argument := by
  rw [show ascii "-" = [0x2D] from rfl, beq_iff_eq]
  cases argument with
  | nil => simp
  | cons first rest => simp [eq_comm]

namespace Item

theorem paths_append (items : List Item) (item : Item) :
    paths (items ++ [item]) = paths items ++ item.path?.toList := by
  cases found : item.path? <;> simp [paths, found]

theorem lastValue?_append (setting : Setting) (items : List Item) (item : Item) :
    lastValue? setting (items ++ [item]) =
      (item.value? setting).or (lastValue? setting items) := by
  cases found : item.value? setting <;> simp [lastValue?, found]

theorem orderly_append_of_pathless {items : List Item} {item : Item} (pathless : item.path? = none) :
    Orderly (items ++ [item]) ↔ Orderly items := by
  simp [Orderly, paths_append, pathless]

theorem orderly_append_path {items : List Item} {name : ByteString} :
    Orderly (items ++ [.path name]) ↔ ∀ earlier ∈ paths items, earlier = [] := by
  simp [Orderly, paths_append, path?]

theorem Orderly.of_append {items others : List Item} (orderly : Orderly (items ++ others)) :
    Orderly items := by
  intro name member
  apply orderly name
  rw [paths, List.filterMap_append, List.dropLast_append]
  split
  · exact member
  · exact List.mem_append_left _ (List.dropLast_subset _ member)

/-- The last path of orderly items is the only one that may have a name. -/
theorem names_iff {items : List Item} {name : ByteString} :
    Names items name ↔ Orderly items ∧ (paths items).getLast? = some name ∧ name ≠ [] := by
  have divided (before : List ByteString) (whole : paths items = before ++ [name]) :
      Orderly items ↔ before.filter (· ≠ []) = [] := by
    simp [Orderly, whole, List.filter_eq_nil_iff]
  constructor
  · intro names
    obtain ⟨before, whole⟩ := List.getLast?_eq_some_iff.mp names.last
    have single := names.single
    have nonempty : name ≠ [] := by
      rintro rfl
      have member : [] ∈ (paths items).filter (· ≠ []) := single ▸ List.mem_singleton_self []
      simp at member
    rw [whole, List.filter_append, List.filter_cons_of_pos (by simpa using nonempty)] at single
    exact ⟨(divided before whole).mpr (by simpa using single), names.last, nonempty⟩
  · rintro ⟨orderly, last, nonempty⟩
    obtain ⟨before, whole⟩ := List.getLast?_eq_some_iff.mp last
    refine ⟨?_, last⟩
    rw [whole, List.filter_append, (divided before whole).mp orderly]
    simpa using nonempty

end Item

namespace Options

open Item

theorem ofItems_hexText (items : List Item) :
    ofItems (items ++ [.hexText]) = { ofItems items with format := .hexText } := by
  simp [ofItems, paths_append, lastValue?_append, path?, value?]

theorem ofItems_number (items : List Item) (setting : Setting) (value : Int) :
    ofItems (items ++ [.number setting value]) = setting.store value (ofItems items) := by
  cases setting <;>
    simp [ofItems, paths_append, lastValue?_append, path?, value?, Setting.store]

theorem ofItems_path (items : List Item) (name : ByteString) :
    ofItems (items ++ [.path name]) = { ofItems items with romPath := name } := by
  simp [ofItems, paths_append, lastValue?_append, path?, value?]

/-- Items name a path when they leave one that is not empty. -/
theorem names_iff_romPath {items : List Item} (orderly : Orderly items) {name : ByteString} :
    Names items name ↔ (ofItems items).romPath = name ∧ name ≠ [] := by
  rw [names_iff, ofItems]
  cases (paths items).getLast? <;> simp +contextual [orderly, eq_comm]

/-- Orderly items leave the path open as long as their paths are empty. -/
theorem romPath_ofItems_isEmpty {items : List Item} (orderly : Orderly items) :
    (ofItems items).romPath.isEmpty = true ↔ ∀ name ∈ paths items, name = [] := by
  rw [List.isEmpty_iff]
  cases last : (paths items).getLast? with
  | none => simp [ofItems, List.getLast?_eq_none_iff.mp last]
  | some name =>
      obtain ⟨before, whole⟩ := List.getLast?_eq_some_iff.mp last
      have earlier : ∀ name ∈ before, name = [] := by simpa [Orderly, whole] using orderly
      simp only [ofItems, whole, List.getLast?_concat, Option.getD_some, List.mem_append,
        List.mem_singleton]
      constructor
      · rintro rfl other (before | rfl)
        · exact earlier other before
        · rfl
      · intro all
        exact all name (.inr rfl)

section Parse

variable {items : List Item}

theorem parse_hexText (rest : List ByteString) :
    parse (ofItems items) (hexFlag :: rest) = parse (ofItems (items ++ [.hexText])) rest := by
  rw [parse, if_pos (by simp), ofItems_hexText]

theorem parse_number {setting : Setting} {text : ByteString} {value : Int}
    (read : setting.read? text = some value) (rest : List ByteString) :
    parse (ofItems items) (setting.flag :: text :: rest) =
      parse (ofItems (items ++ [.number setting value])) rest := by
  rw [parse, if_neg (by simp [setting.flag_ne_hexFlag]), setting.ofFlag?_flag]
  simp only [read, ofItems_number]

theorem parse_path {name : ByteString} (plain : ¬ ascii "-" <+: name)
    (orderly : Orderly (items ++ [.path name])) (rest : List ByteString) :
    parse (ofItems items) (name :: rest) = parse (ofItems (items ++ [.path name])) rest := by
  have free := orderly_append_path.mp orderly
  have earlier : Orderly items := fun other member => free other (List.dropLast_subset _ member)
  rw [parse, if_neg (by simpa using ne_hexFlag_of_plain plain), Setting.ofFlag?_of_plain plain]
  simp only [if_neg (mt head?_eq_dash_iff.mp plain),
    if_pos ((romPath_ofItems_isEmpty earlier).mpr free), ofItems_path]

theorem parse_written {item : Item} {spelling : List ByteString} (written : item.Written spelling)
    (orderly : Orderly (items ++ [item])) (rest : List ByteString) :
    parse (ofItems items) (spelling ++ rest) = parse (ofItems (items ++ [item])) rest := by
  cases written with
  | hexText => exact parse_hexText rest
  | number takes denoted above below =>
      obtain ⟨rfl, -, -⟩ := Setting.takes_iff.mp takes
      exact parse_number (takes.read?_eq_some_iff.mpr ⟨denoted, above, below⟩) rest
  | path plain => exact parse_path plain orderly rest

theorem parse_leading {others : List Item} {arguments rest : List ByteString}
    (leading : Leading others arguments rest) (orderly : Orderly (items ++ others)) :
    parse (ofItems items) arguments = parse (ofItems (items ++ others)) rest := by
  induction leading generalizing items with
  | nil => rw [List.append_nil]
  | @cons item others spelling arguments rest written _ inductionHypothesis =>
      rw [List.append_cons] at orderly ⊢
      rw [parse_written written orderly.of_append, inductionHypothesis orderly]

/-- An offence ends the reading with its own message. -/
theorem parse_offence {rest : List ByteString} {message : ByteString} (orderly : Orderly items)
    (offence : Offence items rest message) :
    ∃ error, parse (ofItems items) rest = (ofItems items, some error) ∧
      error.message = message := by
  cases offence with
  | missingPath absent =>
      refine ⟨.missingPath, ?_, rfl⟩
      rw [parse, if_pos ((romPath_ofItems_isEmpty orderly).mpr absent)]
  | @missingValue setting flag lower upper takes =>
      obtain ⟨rfl, -, -⟩ := Setting.takes_iff.mp takes
      refine ⟨.missingValue setting.flag, ?_, rfl⟩
      rw [parse, if_neg (by simp [setting.flag_ne_hexFlag]), setting.ofFlag?_flag]
  | @badValue setting flag text lower upper after takes bad =>
      have unread : setting.read? text = none := by
        rw [Option.eq_none_iff_forall_ne_some]
        exact fun value read => bad ⟨value, takes.read?_eq_some_iff.mp read⟩
      obtain ⟨rfl, -, -⟩ := Setting.takes_iff.mp takes
      refine ⟨.badValue setting.flag text, ?_, rfl⟩
      rw [parse, if_neg (by simp [setting.flag_ne_hexFlag]), setting.ofFlag?_flag]
      simp only [unread]
  | @unknownOption argument after dashed notHexText unlisted =>
      have unmarked : ¬ (argument == hexFlag) = true := mt beq_iff_eq.mp notHexText
      have unflagged : Setting.ofFlag? argument = none := by
        cases found : Setting.ofFlag? argument with
        | none => rfl
        | some setting => exact absurd (Setting.takes_of_ofFlag? found) (unlisted setting _ _)
      refine ⟨.unknownOption argument, ?_, rfl⟩
      rw [parse, if_neg unmarked, unflagged]
      simp only [if_pos (head?_eq_dash_iff.mpr dashed)]
  | @unexpected name argument after named nonempty plain =>
      have taken : ¬ (ofItems items).romPath.isEmpty = true :=
        fun free => nonempty ((romPath_ofItems_isEmpty orderly).mp free name named)
      refine ⟨.unexpected argument, ?_, rfl⟩
      rw [parse, if_neg (by simpa using ne_hexFlag_of_plain plain), Setting.ofFlag?_of_plain plain]
      simp only [if_neg (mt head?_eq_dash_iff.mp plain), if_neg taken]

end Parse

end Options

namespace Item

/-- The arguments behind some items are divided when they come to an offence or to their end. -/
def Divides (items : List Item) (arguments : List ByteString) : Prop :=
  ∃ others rest, Leading others arguments rest ∧ Orderly (items ++ others) ∧
    ((rest = [] ∧ ∃ name, Names (items ++ others) name) ∨
      ∃ message, Offence (items ++ others) rest message)

namespace Divides

variable {items : List Item} {arguments : List ByteString}

theorem of_offence {message : ByteString} (orderly : Orderly items)
    (offence : Offence items arguments message) : Divides items arguments := by
  refine ⟨[], arguments, .nil, ?_⟩
  rw [List.append_nil]
  exact ⟨orderly, .inr ⟨message, offence⟩⟩

theorem of_written {item : Item} {spelling : List ByteString} (written : item.Written spelling)
    (divides : Divides (items ++ [item]) arguments) : Divides items (spelling ++ arguments) := by
  obtain ⟨others, rest, leading, concluded⟩ := divides
  rw [← List.append_cons] at concluded
  exact ⟨item :: others, rest, .cons written leading, concluded⟩

/-- At the end of the arguments, the last path has a name or all paths are empty. -/
theorem of_nil (orderly : Orderly items) : Divides items [] := by
  by_cases free : (Options.ofItems items).romPath.isEmpty = true
  · exact .of_offence orderly (.missingPath ((Options.romPath_ofItems_isEmpty orderly).mp free))
  · have names : Names items (Options.ofItems items).romPath :=
      (Options.names_iff_romPath orderly).mpr ⟨rfl, mt List.isEmpty_iff.mpr free⟩
    refine ⟨[], [], .nil, ?_⟩
    rw [List.append_nil]
    exact ⟨orderly, .inl ⟨rfl, _, names⟩⟩

end Divides

/-- Every argument list is divided, case by case as it is parsed. -/
theorem divides (options : Options) (arguments : List ByteString) (items : List Item)
    (orderly : Orderly items) (same : Options.ofItems items = options) :
    Divides items arguments := by
  induction options, arguments using Options.parse.induct generalizing items with
  | case1 options => exact .of_nil orderly
  | case2 options argument rest hexText inductionHypothesis =>
      obtain rfl := beq_iff_eq.mp hexText
      refine .of_written .hexText (inductionHypothesis (items ++ [.hexText]) ?_ ?_)
      · exact (orderly_append_of_pathless rfl).mpr orderly
      · rw [Options.ofItems_hexText, same]
  | case3 options argument notHexText setting found =>
      exact .of_offence orderly (.missingValue (Setting.takes_of_ofFlag? found))
  | case4 options argument notHexText setting found text rest unread =>
      have takes := Setting.takes_of_ofFlag? found
      refine .of_offence orderly (.badValue takes ?_)
      rintro ⟨value, good⟩
      simp [takes.read?_eq_some_iff.mpr good] at unread
  | case5 options argument notHexText setting found text rest value read inductionHypothesis =>
      have takes := Setting.takes_of_ofFlag? found
      obtain ⟨denoted, above, below⟩ := takes.read?_eq_some_iff.mp read
      refine .of_written (.number takes denoted above below)
        (inductionHypothesis (items ++ [.number setting value]) ?_ ?_)
      · exact (orderly_append_of_pathless rfl).mpr orderly
      · rw [Options.ofItems_number, same]
  | case6 options argument rest notHexText unflagged dashed =>
      refine .of_offence orderly (.unknownOption (head?_eq_dash_iff.mp dashed)
        (mt beq_iff_eq.mpr notHexText) ?_)
      intro setting lower upper takes
      obtain ⟨rfl, -, -⟩ := Setting.takes_iff.mp takes
      simp [setting.ofFlag?_flag] at unflagged
  | case7 options argument rest notHexText unflagged undashed free inductionHypothesis =>
      rw [← same] at free
      refine .of_written (.path (mt head?_eq_dash_iff.mpr undashed))
        (inductionHypothesis (items ++ [.path argument]) ?_ ?_)
      · exact orderly_append_path.mpr ((Options.romPath_ofItems_isEmpty orderly).mp free)
      · rw [Options.ofItems_path, same]
  | case8 options argument rest notHexText unflagged undashed taken =>
      rw [← same, Options.romPath_ofItems_isEmpty orderly] at taken
      obtain ⟨name, named, nonempty⟩ : ∃ name ∈ paths items, name ≠ [] := by simpa using taken
      exact .of_offence orderly
        (.unexpected named nonempty (mt head?_eq_dash_iff.mpr undashed))

end Item

namespace Options

open Item

variable {items : List Item} {arguments : List ByteString}

theorem parse_of_names {name : ByteString} (leading : Leading items arguments [])
    (names : Names items name) : parse {} arguments = (ofItems items, none) := by
  obtain ⟨orderly, -⟩ := names_iff.mp names
  obtain ⟨path, nonempty⟩ := (names_iff_romPath orderly).mp names
  have read : parse (ofItems []) arguments = parse (ofItems items) [] :=
    @parse_leading [] items arguments [] leading orderly
  have taken : ¬ (ofItems items).romPath.isEmpty = true := by
    rw [path, List.isEmpty_iff]
    exact nonempty
  rw [parse, if_neg taken] at read
  exact read

theorem parse_of_offence {rest : List ByteString} {message : ByteString}
    (leading : Leading items arguments rest) (orderly : Orderly items)
    (offence : Offence items rest message) :
    ∃ error, parse {} arguments = (ofItems items, some error) ∧ error.message = message := by
  obtain ⟨error, refused, message⟩ := parse_offence orderly offence
  have read : parse (ofItems []) arguments = parse (ofItems items) rest :=
    @parse_leading [] items arguments rest leading orderly
  exact ⟨error, read.trans refused, message⟩

end Options

/-- An argument list is accepted exactly when it is a list of items that name a path, and then its
options are those of its items. Any other list is refused at its first offence. -/
theorem command_line_read_exactly (arguments : List ByteString) :
    Options.Settled arguments (Options.parse {} arguments) := by
  obtain ⟨items, rest, leading, orderly, concluded⟩ :=
    Item.divides {} arguments [] (List.forall_mem_nil _) rfl
  constructor
  case accepted =>
    constructor
    · intro accepted
      rcases concluded with ⟨rfl, name, names⟩ | ⟨message, offence⟩
      · exact ⟨items, name, leading, names⟩
      · obtain ⟨error, refused, -⟩ := Options.parse_of_offence leading orderly offence
        simp [refused] at accepted
    · rintro ⟨others, name, divided, names⟩
      rw [Options.parse_of_names divided names]
  case options =>
    intro others name divided names
    obtain ⟨orderly, -⟩ := Item.names_iff.mp names
    rw [Options.parse_of_names divided names]
    exact ⟨rfl, ((Options.names_iff_romPath orderly).mp names).1⟩
  case refused =>
    intro error refused
    rcases concluded with ⟨rfl, name, names⟩ | ⟨message, offence⟩
    · simp [Options.parse_of_names leading names] at refused
    · obtain ⟨raised, read, rfl⟩ := Options.parse_of_offence leading orderly offence
      rw [read] at refused ⊢
      obtain rfl := Option.some.inj refused
      exact ⟨items, rest, leading, orderly, offence, rfl⟩
  case refuses =>
    intro others behind message divided unnamed offence
    exact Options.parse_of_offence divided unnamed offence

/-- A value is read as a value although it looks like an option, and the items before it keep
their effect. -/
example :
    Options.parse {} (["--hex", "--speed", "0x14", "--scale", "--seed", "r"].map ascii) =
      ({ format := .hexText, speed := 20 },
        some (.badValue (ascii "--scale") (ascii "--seed"))) := by
  decide +kernel

end Chip8
