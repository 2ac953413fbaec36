import Chip8.Proofs.HexFormat
import Chip8.Proofs.Startup
import Chip8.Proofs.System

/-!
This file holds the ways to write a program as a hexadecimal text. However a program is written,
its text is read back as this program, so that both formats boot the same machine.
-/

namespace Chip8.Rom.HexText

open Text

/-- A digit is written in either case. -/
def DigitOf (value : Nat) (byte : UInt8) : Prop :=
  byte = lowerDigit value ∨ byte = upperDigit value

/-- A byte has two digits, or one when it is small, and a word of two bytes has four. -/
inductive Spells : List UInt8 → ByteString → Prop
  | small {byte low : UInt8} (bound : byte.toNat < 16) (lowDigit : DigitOf byte.toNat low) :
      Spells [byte] [low]
  | byte {byte high low : UInt8} (highDigit : DigitOf (byte.toNat / 16) high)
      (lowDigit : DigitOf (byte.toNat % 16) low) : Spells [byte] [high, low]
  | word {upper lower first second third fourth : UInt8}
      (firstDigit : DigitOf (upper.toNat / 16) first)
      (secondDigit : DigitOf (upper.toNat % 16) second)
      (thirdDigit : DigitOf (lower.toNat / 16) third)
      (fourthDigit : DigitOf (lower.toNat % 16) fourth) :
      Spells [upper, lower] [first, second, third, fourth]

/-- The base may be marked in front of the digits. -/
def Prefixed (digits word : ByteString) : Prop :=
  word = digits ∨ word = ascii "0x" ++ digits ∨ word = ascii "0X" ++ digits

/-- Ignored bytes are inserted wherever one likes. -/
inductive Sprinkled : ByteString → ByteString → Prop
  | done : Sprinkled [] []
  | keep {byte : UInt8} {word run : ByteString} (following : Sprinkled word run) :
      Sprinkled (byte :: word) (byte :: run)
  | insert {byte : UInt8} {word run : ByteString} (ignored : Ignored byte)
      (following : Sprinkled word run) : Sprinkled word (byte :: run)

/-- A run between blanks writes one piece of the program, or it consists of ignored bytes and
writes nothing. -/
inductive RunWrites : ByteString → List UInt8 → Prop
  | nothing {run : ByteString} (ignored : ∀ byte ∈ run, Ignored byte) : RunWrites run []
  | piece {digits word run : ByteString} {piece : List UInt8} (spelled : Spells piece digits)
      (marked : Prefixed digits word) (sprinkled : Sprinkled word run) : RunWrites run piece

/-- A line may end with a comment. The runs before it write the line's part of the program. -/
def LineWrites (line : ByteString) (program : List UInt8) : Prop :=
  ∃ kept comment listed pieces, line = kept ++ comment ∧ (comment = [] ∨ Marked comment) ∧
    WordsOf kept listed ∧ List.Forall₂ RunWrites listed pieces ∧ program = pieces.flatten

/-- The program is cut into the parts of the lines. -/
def TextWrites (text : ByteString) (program : List UInt8) : Prop :=
  ∃ divided parts, LinesOf text divided ∧ List.Forall₂ LineWrites divided parts ∧
    program = parts.flatten

/-- Tokens carry a program when all of them are good and their values make it up. -/
structure Carries (listed : List Token) (program : List UInt8) : Prop where
  good : ∀ token ∈ listed, token.Good
  delivered : listed.flatMap Token.value = program

namespace Carries

theorem nil : Carries [] [] :=
  ⟨by simp, rfl⟩

theorem append {first second : List Token} {start rest : List UInt8} (one : Carries first start)
    (other : Carries second rest) : Carries (first ++ second) (start ++ rest) where
  good := List.forall_mem_append.mpr ⟨one.good, other.good⟩
  delivered := by rw [List.flatMap_append, one.delivered, other.delivered]

end Carries

theorem DigitOf.read {value : Nat} {byte : UInt8} (written : DigitOf value byte)
    (bound : value < 16) : byte ∈ hexDigits ∧ digitValue byte = value := by
  have each : ∀ value < 16,
      (lowerDigit value ∈ hexDigits ∧ digitValue (lowerDigit value) = value) ∧
        (upperDigit value ∈ hexDigits ∧ digitValue (upperDigit value) = value) := by
    decide
  rcases written with rfl | rfl
  · exact (each value bound).1
  · exact (each value bound).2

/-- A byte is read from the digits of its halves. -/
theorem read_halves {byte high low : UInt8} (highDigit : DigitOf (byte.toNat / 16) high)
    (lowDigit : DigitOf (byte.toNat % 16) low) :
    high ∈ hexDigits ∧ low ∈ hexDigits ∧ 16 * digitValue high + digitValue low = byte.toNat := by
  have bound := byte.toNat_lt
  obtain ⟨highMember, highValue⟩ := highDigit.read (by omega)
  obtain ⟨lowMember, lowValue⟩ := lowDigit.read (Nat.mod_lt _ (by decide))
  refine ⟨highMember, lowMember, ?_⟩
  rw [highValue, lowValue]
  omega

/-- Spelled digits are a good token, whose value is the piece. -/
theorem Spells.carries {piece : List UInt8} {digits : ByteString} (spelled : Spells piece digits)
    (line : Nat) : Carries [⟨line, digits⟩] piece := by
  cases spelled with
  | small bound lowDigit =>
      obtain ⟨member, value⟩ := lowDigit.read bound
      exact
        { good := by simpa using ⟨by simpa [Token.Digital] using member, by simp⟩
          delivered := by simp [Token.value, number, value] }
  | byte highDigit lowDigit =>
      obtain ⟨highMember, lowMember, joined⟩ := read_halves highDigit lowDigit
      exact
        { good := by
            simpa using ⟨by simpa [Token.Digital] using ⟨highMember, lowMember⟩, by simp⟩
          delivered := by simp [Token.value, number, joined] }
  | @word upper lower first second third fourth firstDigit secondDigit thirdDigit fourthDigit =>
      obtain ⟨firstMember, secondMember, upperJoined⟩ := read_halves firstDigit secondDigit
      obtain ⟨thirdMember, fourthMember, lowerJoined⟩ := read_halves thirdDigit fourthDigit
      have whole : number [first, second, third, fourth] = 256 * upper.toNat + lower.toNat := by
        simp only [number, List.foldl_cons, List.foldl_nil]
        omega
      have bound := lower.toNat_lt
      have high : (256 * upper.toNat + lower.toNat) / 256 = upper.toNat := by omega
      have low : (256 * upper.toNat + lower.toNat) % 256 = lower.toNat := by omega
      exact
        { good := by
            simpa using
              ⟨by simpa [Token.Digital] using
                ⟨firstMember, secondMember, thirdMember, fourthMember⟩, by simp⟩
          delivered := by simp [Token.value, whole, high, low] }

/-- A digit is neither ignored nor the letter of a mark, and it starts no comment. -/
theorem hexDigits_plain : ∀ byte ∈ hexDigits,
    ¬ Ignored byte ∧ byte ∉ ascii "xX" ∧ byte ∉ ascii "#;/" := by
  decide +kernel

namespace Sprinkled

variable {word run : ByteString}

theorem filter (sprinkled : Sprinkled word run) (plain : ∀ byte ∈ word, ¬ Ignored byte) :
    run.filter (fun byte => ¬ Ignored byte) = word := by
  induction sprinkled with
  | done => rfl
  | keep _ inductionHypothesis =>
      obtain ⟨bytePlain, wordPlain⟩ := List.forall_mem_cons.mp plain
      rw [List.filter_cons_of_pos (by simpa using bytePlain), inductionHypothesis wordPlain]
  | insert ignored _ inductionHypothesis =>
      rw [List.filter_cons_of_neg (by simpa using ignored), inductionHypothesis plain]

theorem ignored_or_mem (sprinkled : Sprinkled word run) {byte : UInt8} (member : byte ∈ run) :
    Ignored byte ∨ byte ∈ word := by
  induction sprinkled with
  | done => exact .inr member
  | keep _ inductionHypothesis =>
      rcases List.mem_cons.mp member with rfl | later
      · exact .inr List.mem_cons_self
      · exact (inductionHypothesis later).imp_right (List.mem_cons_of_mem _)
  | insert ignored _ inductionHypothesis =>
      rcases List.mem_cons.mp member with rfl | later
      · exact .inl ignored
      · exact inductionHypothesis later

end Sprinkled

section Spelled

variable {piece : List UInt8} {digits word run : ByteString} (spelled : Spells piece digits)

include spelled

theorem Spells.plain : ∀ byte ∈ digits,
    ¬ Ignored byte ∧ byte ∉ ascii "xX" ∧ byte ∉ ascii "#;/" := by
  have good := (spelled.carries 0).good ⟨0, digits⟩ List.mem_cons_self
  exact fun byte member => hexDigits_plain byte (good.digital byte member)

theorem Spells.length_pos : 0 < digits.length := by
  cases spelled <;> simp

theorem Prefixed.plain (marked : Prefixed digits word) : ∀ byte ∈ word,
    ¬ Ignored byte ∧ byte ∉ ascii "#;/" := by
  have markPlain : ∀ byte ∈ ascii "0x" ++ ascii "0X", ¬ Ignored byte ∧ byte ∉ ascii "#;/" := by
    decide +kernel
  have digitPlain (byte : UInt8) (member : byte ∈ digits) :
      ¬ Ignored byte ∧ byte ∉ ascii "#;/" :=
    ⟨(spelled.plain byte member).1, (spelled.plain byte member).2.2⟩
  intro byte member
  rcases marked with rfl | rfl | rfl
  · exact digitPlain byte member
  all_goals
    rcases List.mem_append.mp member with mark | digit
    · exact markPlain byte (by simp [mark])
    · exact digitPlain byte digit

/-- No mark is taken for digits, and a mark in front of digits is dropped. -/
theorem tokenText_of_sprinkled (marked : Prefixed digits word) (sprinkled : Sprinkled word run) :
    tokenText run = digits := by
  have letterless (letter : UInt8) (mark : letter ∈ ascii "xX") : letter ∉ digits :=
    fun member => (spelled.plain letter member).2.1 mark
  have unmarked : ¬ Based digits := by
    rintro ⟨_, lower | upper⟩
    · exact letterless 0x78 (by decide) (lower.subset (by decide))
    · exact letterless 0x58 (by decide) (upper.subset (by decide))
  have filled := spelled.length_pos
  have kept := sprinkled.filter fun byte member => (marked.plain spelled byte member).1
  simp only [tokenText, kept]
  rcases marked with rfl | rfl | rfl
  · exact if_neg unmarked
  · have based : Based (ascii "0x" ++ digits) :=
      ⟨by simpa [ascii] using filled, .inl (List.prefix_append _ _)⟩
    exact if_pos based
  · have based : Based (ascii "0X" ++ digits) :=
      ⟨by simpa [ascii] using filled, .inr (List.prefix_append _ _)⟩
    exact if_pos based

end Spelled

theorem marked_head {byte : UInt8} {rest : ByteString} (marked : Marked (byte :: rest)) :
    byte ∈ ascii "#;/" := by
  rcases marked with ⟨_, whole⟩ | ⟨_, whole⟩ | ⟨_, whole⟩
  all_goals
    obtain ⟨rfl, _⟩ := List.cons.inj whole
    decide

/-- A code without the first byte of a marker reaches to the comment. -/
theorem codeOf_append {kept comment : ByteString} (plain : ∀ byte ∈ kept, byte ∉ ascii "#;/")
    (ended : comment = [] ∨ Marked comment) : CodeOf (kept ++ comment) kept where
  cut := ⟨comment, rfl, ended⟩
  first before after whole marked := by
    rcases List.append_eq_append_iff.mp whole with ⟨between, rfl, _⟩ | ⟨between, rfl, rfl⟩
    · simp
    · cases between with
      | nil => simp
      | cons byte others =>
          exact absurd (marked_head marked) (plain byte (by simp))

theorem RunWrites.unmarked {run : ByteString} {piece : List UInt8} (writes : RunWrites run piece) :
    ∀ byte ∈ run, byte ∉ ascii "#;/" := by
  have ignoredUnmarked {byte : UInt8} (ignored : Ignored byte) : byte ∉ ascii "#;/" := by
    rcases ignored with rfl | rfl <;> decide
  intro byte member
  cases writes with
  | nothing ignored => exact ignoredUnmarked (ignored byte member)
  | piece spelled marked sprinkled =>
      rcases sprinkled.ignored_or_mem member with ignored | inside
      · exact ignoredUnmarked ignored
      · exact (marked.plain spelled byte inside).2

/-- The runs of a line become its tokens, without those that write nothing. -/
theorem carries_of_runs {listed : List ByteString} {pieces : List (List UInt8)}
    (each : List.Forall₂ RunWrites listed pieces) (line : Nat) :
    Carries (((listed.map tokenText).filter (· ≠ [])).map (Token.mk line)) pieces.flatten := by
  induction each with
  | nil => exact Carries.nil
  | @cons run piece others pieces writes _ inductionHypothesis =>
      rw [List.map_cons, List.flatten_cons]
      cases writes with
      | nothing ignored =>
          have empty : run.filter (fun byte => ¬ Ignored byte) = [] :=
            List.filter_eq_nil_iff.mpr (by simpa using ignored)
          have silent : tokenText run = [] := by
            simp only [tokenText, empty, List.drop_nil, ite_self]
          rw [silent, List.filter_cons_of_neg (by simp), List.nil_append]
          exact inductionHypothesis
      | piece spelled marked sprinkled =>
          have present := List.ne_nil_of_length_pos spelled.length_pos
          rw [tokenText_of_sprinkled spelled marked sprinkled,
            List.filter_cons_of_pos (by simpa using present), List.map_cons]
          exact (spelled.carries line).append inductionHypothesis

theorem LineWrites.carries {line : ByteString} {program : List UInt8}
    (writes : LineWrites line program) :
    ∃ texts, TokensOfLine line texts ∧ ∀ place, Carries (texts.map (Token.mk place)) program := by
  obtain ⟨kept, comment, listed, pieces, rfl, ended, divided, each, rfl⟩ := writes
  have runs : ∀ run ∈ listed, ∀ byte ∈ run, byte ∉ ascii "#;/" :=
    ((List.forall₂_and_left _ _).mp
      (each.imp fun _ _ written => ⟨written.unmarked, written⟩)).1
  have blanks : ∀ byte ∈ ascii "#;/", isBlank byte = false := by decide +kernel
  have plain : ∀ byte ∈ kept, byte ∉ ascii "#;/" := by
    intro byte member marker
    rcases divided.blank_or_mem member with blank | ⟨run, member, inside⟩
    · exact Bool.false_ne_true ((blanks byte marker).symm.trans blank)
    · exact runs run member byte inside marker
  exact ⟨_, ⟨kept, listed, codeOf_append plain ended, divided, rfl⟩, carries_of_runs each⟩

/-- The tokens of a text are those of its lines, whatever their numbers are. -/
theorem carries_of_lines {divided : List ByteString} {parts : List (List UInt8)}
    (each : List.Forall₂ LineWrites divided parts) :
    ∃ groups, List.Forall₂ TokensOfLine divided groups ∧ ∀ start,
      Carries ((groups.zipIdx start).flatMap fun numbered => numbered.1.map (Token.mk numbered.2))
        parts.flatten := by
  induction each with
  | nil => exact ⟨[], .nil, fun _ => Carries.nil⟩
  | cons writes _ inductionHypothesis =>
      obtain ⟨texts, tokens, first⟩ := writes.carries
      obtain ⟨groups, others, rest⟩ := inductionHypothesis
      refine ⟨texts :: groups, .cons tokens others, fun start => ?_⟩
      rw [List.zipIdx_cons, List.flatMap_cons, List.flatten_cons]
      exact (first start).append (rest (start + 1))

/-- A written program is what its text stands for. -/
theorem TextWrites.denotes {text : ByteString} {program : List UInt8}
    (writes : TextWrites text program) (nonempty : program ≠ []) : Denotes text program := by
  obtain ⟨divided, parts, lined, each, rfl⟩ := writes
  obtain ⟨groups, grouped, carried⟩ := carries_of_lines each
  refine ⟨_, ⟨divided, groups, lined, grouped, rfl⟩, ?_, (carried 1).good,
    (carried 1).delivered.symm⟩
  intro absent
  have delivered := (carried 1).delivered
  rw [absent, List.flatMap_nil] at delivered
  exact nonempty delivered.symm

end Chip8.Rom.HexText

namespace Chip8

open Text Rom.HexText

/-- A program that is written as a text boots like the program itself. Both boots succeed with the
same machine, or the program is too large for both of them. -/
theorem formats_boot_alike (machine : Machine) (options : Options) (program : List UInt8)
    (nonempty : program ≠ []) (text : ByteString) (writes : TextWrites text program)
    (texts binaries : Rom.Files) (textPath binaryPath : ByteString)
    (textFile : texts textPath = some (.regular text))
    (binaryFile : binaries binaryPath = some (.regular program)) :
    let booted := machine.boot texts { options with romPath := textPath, format := .hexText }
    booted = machine.boot binaries { options with romPath := binaryPath, format := .binary } ∧
      (program.length ≤ 3584 → booted.2 = none ∧
        booted.1.Started program (options.seed.elim machine.generator MersenneTwister.seeded)) ∧
      (3584 < program.length → program.length < 0x80000000 →
        booted.2 = some (.tooLarge program.length)) := by
  intro booted
  let textOptions : Options := { options with romPath := textPath, format := .hexText }
  have fromText : Rom.Held texts textOptions.romPath textOptions.format program :=
    .hexText textFile (writes.denotes nonempty)
  refine ⟨?alike, ?short, ?long⟩
  case alike =>
    have textRead : Rom.read texts textPath .hexText = .ok program := Rom.held_iff_read.mp fromText
    have binaryRead : Rom.read binaries binaryPath .binary = .ok program :=
      Rom.held_iff_read.mp (.binary binaryFile nonempty)
    simp only [booted, Machine.boot, textRead, binaryRead]
  case short =>
    intro short
    obtain ⟨loaded, boots, started⟩ := Machine.boot_of_short fromText machine short
    have same : booted = (loaded, none) := boots
    rw [same]
    exact ⟨rfl, started⟩
  case long =>
    intro long small
    exact congrArg Prod.snd (Machine.boot_of_oversized fromText machine small long)

/-- One word is written with a mark and ignored bytes, one byte with a single digit, and one run
writes nothing. -/
def commentedText : ByteString :=
  ascii "0xA2_2a, 5 // five\n ,_ fF\n"

theorem commentedText_writes : TextWrites commentedText [0xA2, 0x2A, 0x05, 0xFF] := by
  have word : RunWrites (ascii "0xA2_2a,") [0xA2, 0x2A] :=
    .piece (.word (.inr rfl) (.inl rfl) (.inl rfl) (.inl rfl)) (.inr (.inl rfl))
      (.keep (.keep (.keep (.keep (.insert (.inr rfl)
        (.keep (.keep (.insert (.inl rfl) .done))))))))
  have five : RunWrites (ascii "5") [0x05] :=
    .piece (.small (by decide) (.inl rfl)) (.inl rfl) (.keep .done)
  have silent : RunWrites (ascii ",_") [] := .nothing (by decide +kernel)
  have last : RunWrites (ascii "fF") [0xFF] :=
    .piece (.byte (.inl rfl) (.inr rfl)) (.inl rfl) (.keep (.keep .done))
  have first : LineWrites (ascii "0xA2_2a, 5 // five") [0xA2, 0x2A, 0x05] :=
    ⟨ascii "0xA2_2a, 5 ", ascii "// five", [ascii "0xA2_2a,", ascii "5"], [[0xA2, 0x2A], [0x05]],
      rfl, .inr (.inr (.inr ⟨ascii " five", rfl⟩)), wordsOf_iff.mpr (by decide),
      .cons word (.cons five .nil), rfl⟩
  have second : LineWrites (ascii " ,_ fF") [0xFF] :=
    ⟨ascii " ,_ fF", [], [ascii ",_", ascii "fF"], [[], [0xFF]], rfl, .inl rfl,
      wordsOf_iff.mpr (by decide), .cons silent (.cons last .nil), rfl⟩
  have third : LineWrites [] [] := ⟨[], [], [], [], rfl, .inl rfl, .none, .nil, rfl⟩
  exact ⟨[ascii "0xA2_2a, 5 // five", ascii " ,_ fF", []], [[0xA2, 0x2A, 0x05], [0xFF], []],
    linesOf_iff.mpr (by decide), .cons first (.cons second (.cons third .nil)), rfl⟩

/-- The commented text and its four bytes are both booted with success, and the bytes are loaded. -/
theorem formats_boot_commentedText_alike :
    let machine := Machine.fresh (MersenneTwister.seeded 0)
    let texts : Rom.Files := fun _ => some (.regular commentedText)
    let binaries := Rom.Files.holding [0xA2, 0x2A, 0x05, 0xFF]
    let booted := machine.boot texts { romPath := [], format := .hexText }
    booted = machine.boot binaries { romPath := [], format := .binary } ∧ booted.2 = none ∧
      [0x200, 0x201, 0x202, 0x203].map booted.1.memory.read = [0xA2, 0x2A, 0x05, 0xFF] := by
  intro machine texts binaries booted
  obtain ⟨alike, short, -⟩ := formats_boot_alike machine {} [0xA2, 0x2A, 0x05, 0xFF] (by simp)
    commentedText commentedText_writes texts binaries [] [] rfl rfl
  obtain ⟨success, started⟩ := short (by decide)
  refine ⟨alike, success, ?_⟩
  have loaded (offset : Nat) (inside : offset < 4) :=
    Option.some.inj ((List.getElem?_eq_getElem inside).symm.trans
      (started.memory.loaded offset inside))
  simp only [List.map_cons, List.map_nil, List.cons.injEq, and_true]
  exact ⟨(loaded 0 (by decide)).symm, (loaded 1 (by decide)).symm, (loaded 2 (by decide)).symm,
    (loaded 3 (by decide)).symm⟩

end Chip8
