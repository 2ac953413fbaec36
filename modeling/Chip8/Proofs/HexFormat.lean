import Chip8.Proofs.TextDivision
import Chip8.Proofs.Wording
import Chip8.Rom.HexText
import Mathlib.Data.List.Flatten
import Mathlib.Data.List.Forall2

/-!
This file holds the format of a hexadecimal text. The format is described line by line and word by
word, and the reading accepts exactly the texts in this format. A text that is refused has a first
bad token, and the log names it with its line.
-/

namespace Chip8.Rom.HexText

open Text

/-- These are the three markers of a comment. -/
def Marked (text : ByteString) : Prop :=
  ascii "#" <+: text ∨ ascii ";" <+: text ∨ ascii "//" <+: text

/-- The code of a line ends at the first marker, or with the line. -/
structure CodeOf (line kept : ByteString) : Prop where
  cut : ∃ comment, line = kept ++ comment ∧ (comment = [] ∨ Marked comment)
  first : ∀ before after, line = before ++ after → Marked after → kept.length ≤ before.length

/-- Two bytes are ignored inside of words: the comma and the underscore. -/
def Ignored (byte : UInt8) : Prop :=
  byte = 0x2C ∨ byte = 0x5F

instance (byte : UInt8) : Decidable (Ignored byte) :=
  inferInstanceAs (Decidable (_ ∨ _))

/-- A word of more than two bytes may start with a mark of its base, once the ignored bytes are
gone. -/
def Based (word : ByteString) : Prop :=
  2 < word.length ∧ (ascii "0x" <+: word ∨ ascii "0X" <+: word)

instance (word : ByteString) : Decidable (Based word) :=
  inferInstanceAs (Decidable (_ ∧ _))

/-- The token of a word is what remains without the ignored bytes and without the mark. -/
def tokenText (word : ByteString) : ByteString :=
  let plain := word.filter fun byte => ¬ Ignored byte
  if Based plain then plain.drop 2 else plain

/-- A word of ignored bytes leaves no token. -/
def TokensOfLine (line : ByteString) (texts : List ByteString) : Prop :=
  ∃ kept listed, CodeOf line kept ∧ WordsOf kept listed ∧
    texts = (listed.map tokenText).filter (· ≠ [])

/-- The lines are counted from one. -/
def TokensOf (text : ByteString) (listed : List Token) : Prop :=
  ∃ divided groups, LinesOf text divided ∧ List.Forall₂ TokensOfLine divided groups ∧
    listed = (groups.zipIdx 1).flatMap fun numbered => numbered.1.map (Token.mk numbered.2)

def hexDigits : ByteString :=
  ascii "0123456789abcdefABCDEF"

/-- The value of a digit is its place among the digits of its case. -/
def digitValue (byte : UInt8) : Nat :=
  if byte ∈ ascii "ABCDEF" then 10 + (ascii "ABCDEF").idxOf byte
  else (ascii "0123456789abcdef").idxOf byte

/-- The first digit of a number counts most. -/
def number (digits : ByteString) : Nat :=
  digits.foldl (fun total byte => 16 * total + digitValue byte) 0

namespace Token

def Digital (token : Token) : Prop :=
  ∀ byte ∈ token.text, byte ∈ hexDigits

/-- A good token has one, two or four digits. -/
structure Good (token : Token) : Prop where
  digital : token.Digital
  length : token.text.length ∈ [1, 2, 4]

/-- Four digits are a word of two bytes, the high one first. -/
def value (token : Token) : List UInt8 :=
  if token.text.length = 4 then
    [UInt8.ofNat (number token.text / 256), UInt8.ofNat (number token.text % 256)]
  else [UInt8.ofNat (number token.text)]

end Token

/-- A text in this format stands for the values of its tokens. -/
def Denotes (text : ByteString) (program : List UInt8) : Prop :=
  ∃ listed, TokensOf text listed ∧ listed ≠ [] ∧ (∀ token ∈ listed, token.Good) ∧
    program = listed.flatMap Token.value

/-- A refused text delivers the bytes before its first bad token, and the log tells what is bad
about this token. A foreign byte counts before a wrong length. -/
inductive Refusal : List Token → List UInt8 → ByteString → Prop
  | noBytes : Refusal [] [] (ascii "[loadhex] no bytes read\n")
  | notHex {before after : List Token} {bad : Token} (good : ∀ token ∈ before, token.Good)
      (foreign : ¬ bad.Digital) :
      Refusal (before ++ bad :: after) (before.flatMap Token.value)
        (ascii "[loadhex] non-hex token '" ++ bad.text ++ ascii "' at line " ++
          Wording.printed (Wording.decimal bad.line) ++ ascii "\n")
  | outOfRange {before after : List Token} {bad : Token} (good : ∀ token ∈ before, token.Good)
      (digital : bad.Digital) (length : bad.text.length ∉ [1, 2, 4]) :
      Refusal (before ++ bad :: after) (before.flatMap Token.value)
        (ascii "[loadhex] byte out of range '" ++ bad.text ++ ascii "' at line " ++
          Wording.printed (Wording.decimal bad.line) ++ ascii "\n")

/-- A reading is settled by the tokens of its text. -/
structure Reading.Settled (reading : Reading) (listed : List Token) : Prop where
  accepted : reading.problem = none ↔ listed ≠ [] ∧ ∀ token ∈ listed, token.Good
  delivered : reading.problem = none → reading.bytes = listed.flatMap Token.value
  refused : ∀ problem, reading.problem = some problem →
    Refusal listed reading.bytes problem.message

theorem startsComment_iff {text : ByteString} : startsComment text = true ↔ Marked text := by
  unfold startsComment
  split <;> simp_all [Marked, ascii, List.prefix_cons_iff]
  refine ⟨?number, ?semicolon, ?slashes⟩
  all_goals
    rintro ⟨tail, rfl⟩
    simp_all

/-- A code reaches at most to the end of another code, where the line ends or a marker stands. -/
theorem CodeOf.length_le {line first second : ByteString} (one : CodeOf line first)
    (other : CodeOf line second) : first.length ≤ second.length := by
  obtain ⟨comment, whole, ended | marked⟩ := other.cut
  · obtain ⟨rest, split, _⟩ := one.cut
    rw [ended, List.append_nil] at whole
    rw [← whole, split, List.length_append]
    exact Nat.le_add_right _ _
  · exact one.first second comment whole marked

theorem CodeOf.unique {line first second : ByteString} (one : CodeOf line first)
    (other : CodeOf line second) : first = second := by
  obtain ⟨_, oneWhole, _⟩ := one.cut
  obtain ⟨_, otherWhole, _⟩ := other.cut
  have same : first.length = second.length :=
    Nat.le_antisymm (one.length_le other) (other.length_le one)
  exact (List.append_inj (oneWhole.symm.trans otherWhole) same).1

theorem codeOf_code (line : ByteString) : CodeOf line (code line) := by
  induction line with
  | nil => exact ⟨⟨[], rfl, .inl rfl⟩, fun _ _ _ _ => Nat.zero_le _⟩
  | cons byte rest inductionHypothesis =>
      rw [code]
      split
      · rename_i starts
        exact ⟨⟨byte :: rest, rfl, .inr (startsComment_iff.mp starts)⟩,
          fun _ _ _ _ => Nat.zero_le _⟩
      · rename_i starts
        obtain ⟨comment, whole, ended⟩ := inductionHypothesis.cut
        refine ⟨⟨comment, congrArg (byte :: ·) whole, ended⟩, ?_⟩
        intro before after divided marked
        cases before with
        | nil => exact absurd (startsComment_iff.mpr (divided ▸ marked)) starts
        | cons first others =>
            have shorter := inductionHypothesis.first others after (List.cons.inj divided).2 marked
            exact Nat.succ_le_succ shorter

/-- A line has one code. -/
theorem codeOf_iff {line kept : ByteString} : CodeOf line kept ↔ kept = code line := by
  constructor
  · exact fun coded => coded.unique (codeOf_code line)
  · rintro rfl
    exact codeOf_code line

theorem dropMarker_eq (word : ByteString) :
    dropMarker word = if Based word then word.drop 2 else word := by
  unfold dropMarker
  split
  · simp [Based, ascii]
  · simp [Based, ascii]
  · rename_i lower upper
    rw [if_neg]
    rintro ⟨long, ⟨rest, rfl⟩ | ⟨rest, rfl⟩⟩
    all_goals
      obtain ⟨third, others, rfl⟩ := List.exists_cons_of_length_pos
        (show 0 < rest.length by simpa [ascii] using long)
      simp [ascii] at lower upper

theorem clean_eq (word : ByteString) : clean word = tokenText word := by
  have plain : (fun byte : UInt8 => byte != 0x2C && byte != 0x5F) =
      fun byte => decide (¬ Ignored byte) := by
    funext byte
    simp [Ignored, bne, not_or, beq_eq_decide]
  rw [clean, plain, dropMarker_eq, tokenText]

theorem tokensOfLine_iff {line : ByteString} {texts : List ByteString} :
    TokensOfLine line texts ↔ texts = ((words (code line)).map clean).filter (· ≠ []) := by
  have cleaned : clean = tokenText := funext clean_eq
  constructor
  · rintro ⟨kept, listed, coded, divided, rfl⟩
    rw [wordsOf_iff.mp divided, codeOf_iff.mp coded, cleaned]
  · rintro rfl
    exact ⟨_, _, codeOf_code line, wordsOf_iff.mpr rfl, by rw [cleaned]⟩

/-- A text has one list of tokens. -/
theorem tokensOf_iff {text : ByteString} {listed : List Token} :
    TokensOf text listed ↔ listed = tokens text := by
  let texts (line : ByteString) : List ByteString :=
    ((words (code line)).map clean).filter (· ≠ [])
  have numbered : tokens text =
      (((lines text).map texts).zipIdx 1).flatMap fun group =>
        group.1.map (Token.mk group.2) := by
    rw [List.zipIdx_map, List.flatMap_map]
    rfl
  have grouped (divided : List ByteString) (groups : List (List ByteString)) :
      List.Forall₂ TokensOfLine divided groups ↔ groups = divided.map texts := by
    have exactly : TokensOfLine = fun line group => texts line = group := by
      funext line group
      exact propext (tokensOfLine_iff.trans eq_comm)
    rw [exactly, ← List.forall₂_map_left_iff, List.forall₂_eq_eq_eq, eq_comm]
  rw [numbered]
  constructor
  · rintro ⟨divided, groups, lined, each, rfl⟩
    rw [(grouped divided groups).mp each, linesOf_iff.mp lined]
  · rintro rfl
    exact ⟨lines text, _, linesOf_iff.mpr rfl, (grouped _ _).mpr rfl, rfl⟩

/-- The digits are checked one by one. -/
theorem digitValue?_eq (byte : UInt8) :
    Numeral.digitValue? byte = if byte ∈ hexDigits then some (digitValue byte) else none := by
  have each : ∀ code < 256, Numeral.digitValue? (UInt8.ofNat code) =
      if UInt8.ofNat code ∈ hexDigits then some (digitValue (UInt8.ofNat code)) else none := by
    decide +kernel
  simpa using each byte.toNat byte.toNat_lt

theorem mapM_of_digits {text : ByteString} (digits : ∀ byte ∈ text, byte ∈ hexDigits) :
    text.mapM Numeral.digitValue? = some (text.map digitValue) := by
  induction text with
  | nil => rfl
  | cons byte rest inductionHypothesis =>
      obtain ⟨digit, restDigits⟩ := List.forall_mem_cons.mp digits
      rw [List.mapM_cons, digitValue?_eq, if_pos digit, inductionHypothesis restDigits]
      rfl

/-- One foreign byte spoils a whole text. -/
theorem mapM_of_foreign {text : ByteString} (foreign : ¬ ∀ byte ∈ text, byte ∈ hexDigits) :
    text.mapM Numeral.digitValue? = none := by
  induction text with
  | nil => simp at foreign
  | cons byte rest inductionHypothesis =>
      rw [List.mapM_cons, digitValue?_eq]
      by_cases digit : byte ∈ hexDigits
      · have restForeign : ¬ ∀ other ∈ rest, other ∈ hexDigits := fun restDigits =>
          foreign (List.forall_mem_cons.mpr ⟨digit, restDigits⟩)
        rw [if_pos digit, inductionHypothesis restForeign]
        rfl
      · rw [if_neg digit]
        rfl

theorem digitValue_lt {byte : UInt8} (digit : byte ∈ hexDigits) : digitValue byte < 16 := by
  have read := digitValue?_eq byte
  rw [if_pos digit] at read
  exact Numeral.digitValue?_lt read

namespace Token

variable {token : Token}

theorem bytes_of_foreign (foreign : ¬ token.Digital) : token.bytes = .error (.notHex token) := by
  simp only [bytes, mapM_of_foreign foreign]

/-- Two pairs of digits are the two halves of a word. -/
theorem bytes_of_good (good : token.Good) : token.bytes = .ok token.value := by
  obtain ⟨digital, length⟩ := good
  obtain ⟨line, text⟩ := token
  simp only [Digital] at digital length
  simp only [bytes, value, mapM_of_digits digital]
  match text with
  | [] | [_, _, _] | _ :: _ :: _ :: _ :: _ :: _ => simp at length
  | [low] => simp [number]
  | [high, low] => simp [number]
  | [first, second, third, fourth] =>
      have thirdBound := digitValue_lt (digital third (by simp))
      have fourthBound := digitValue_lt (digital fourth (by simp))
      have high : (number [first, second, third, fourth]) / 256 =
          16 * digitValue first + digitValue second := by
        simp only [number, List.foldl_cons, List.foldl_nil]
        omega
      have low : (number [first, second, third, fourth]) % 256 =
          16 * digitValue third + digitValue fourth := by
        simp only [number, List.foldl_cons, List.foldl_nil]
        omega
      rw [high, low]
      rfl

theorem bytes_of_digital (digital : token.Digital) (length : token.text.length ∉ [1, 2, 4]) :
    token.bytes = .error (.outOfRange token) := by
  obtain ⟨line, text⟩ := token
  simp only [Digital] at digital length
  simp only [bytes, mapM_of_digits digital]
  match text with
  | [] | [_, _, _] | _ :: _ :: _ :: _ :: _ :: _ => rfl
  | [_] | [_, _] | [_, _, _, _] => simp at length

/-- A token that is not good is refused, and the log tells why. -/
theorem refused_of_not_good (bad : ¬ token.Good) {before after : List Token}
    (good : ∀ earlier ∈ before, earlier.Good) :
    ∃ problem, token.bytes = .error problem ∧
      Refusal (before ++ token :: after) (before.flatMap value) problem.message := by
  by_cases digital : token.Digital
  · have length : token.text.length ∉ [1, 2, 4] := fun length => bad ⟨digital, length⟩
    refine ⟨.outOfRange token, bytes_of_digital digital length, ?_⟩
    rw [Problem.message, Wording.decimal_eq]
    exact .outOfRange good digital length
  · refine ⟨.notHex token, bytes_of_foreign digital, ?_⟩
    rw [Problem.message, Wording.decimal_eq]
    exact .notHex good digital

end Token

theorem readTokens_of_good {listed : List Token} (good : ∀ token ∈ listed, token.Good) :
    readTokens listed = ⟨listed.flatMap Token.value, none⟩ := by
  induction listed with
  | nil => rfl
  | cons token rest inductionHypothesis =>
      obtain ⟨tokenGood, restGood⟩ := List.forall_mem_cons.mp good
      simp only [readTokens, Token.bytes_of_good tokenGood, inductionHypothesis restGood,
        List.flatMap_cons]

/-- The reading stops at the first token that is refused. -/
theorem readTokens_of_refused {before after : List Token} {bad : Token} {problem : Problem}
    (good : ∀ token ∈ before, token.Good) (refused : bad.bytes = .error problem) :
    readTokens (before ++ bad :: after) = ⟨before.flatMap Token.value, some problem⟩ := by
  induction before with
  | nil => simp only [List.nil_append, readTokens, refused, List.flatMap_nil]
  | cons token rest inductionHypothesis =>
      obtain ⟨tokenGood, restGood⟩ := List.forall_mem_cons.mp good
      simp only [List.cons_append, readTokens, Token.bytes_of_good tokenGood,
        inductionHypothesis restGood, List.flatMap_cons]

/-- The tokens before the first bad one are good. -/
theorem exists_first_bad {listed : List Token} (bad : ¬ ∀ token ∈ listed, token.Good) :
    ∃ before token after, listed = before ++ token :: after ∧
      (∀ earlier ∈ before, earlier.Good) ∧ ¬ token.Good := by
  induction listed with
  | nil => simp at bad
  | cons first rest inductionHypothesis =>
      by_cases firstGood : first.Good
      · have restBad : ¬ ∀ token ∈ rest, token.Good := fun restGood =>
          bad (List.forall_mem_cons.mpr ⟨firstGood, restGood⟩)
        obtain ⟨before, token, after, rfl, good, tokenBad⟩ := inductionHypothesis restBad
        exact ⟨first :: before, token, after, rfl, List.forall_mem_cons.mpr ⟨firstGood, good⟩,
          tokenBad⟩
      · exact ⟨[], first, rest, rfl, by simp, firstGood⟩

theorem read_eq_readTokens {text : ByteString} (present : tokens text ≠ []) :
    read text = readTokens (tokens text) := by
  unfold read
  split
  · rename_i absent
    exact absurd absent present
  · rename_i found
    rw [found]

theorem settled_read (text : ByteString) : (read text).Settled (tokens text) := by
  by_cases present : tokens text = []
  · have reading : read text = ⟨[], some .noBytes⟩ := by simp only [read, present]
    rw [reading, present]
    exact
      { accepted := by simp
        delivered := by simp
        refused := by
          rintro problem ⟨⟩
          exact .noBytes }
  · rw [read_eq_readTokens present]
    by_cases good : ∀ token ∈ tokens text, token.Good
    · rw [readTokens_of_good good]
      exact
        { accepted := by simpa using ⟨present, good⟩
          delivered := by simp
          refused := by simp }
    · obtain ⟨before, token, after, listed, earlierGood, tokenBad⟩ := exists_first_bad good
      obtain ⟨problem, refused, refusal⟩ := Token.refused_of_not_good tokenBad earlierGood
      rw [listed] at good ⊢
      rw [readTokens_of_refused earlierGood refused]
      exact
        { accepted := by simpa using good
          delivered := by simp
          refused := by
            rintro other ⟨⟩
            exact refusal }

/-- The texts in the format are those that are read without a problem. -/
theorem denotes_iff_read {text : ByteString} {program : List UInt8} :
    Denotes text program ↔ read text = ⟨program, none⟩ := by
  have settled := settled_read text
  constructor
  · rintro ⟨listed, divided, nonempty, good, rfl⟩
    obtain rfl := tokensOf_iff.mp divided
    rw [read_eq_readTokens nonempty, readTokens_of_good good]
  · intro reading
    rw [reading] at settled
    obtain ⟨nonempty, good⟩ := settled.accepted.mp rfl
    exact ⟨tokens text, tokensOf_iff.mpr rfl, nonempty, good, settled.delivered rfl⟩

theorem clean_sublist (word : ByteString) : (clean word).Sublist word := by
  rw [clean_eq, tokenText]
  split
  · exact (List.drop_sublist 2 _).trans List.filter_sublist
  · exact List.filter_sublist

theorem lineTokens_sublist (line : Nat) (text : ByteString) :
    ((lineTokens line text).flatMap Token.text).Sublist text := by
  obtain ⟨comment, whole, _⟩ := (codeOf_code text).cut
  have kept : (code text).Sublist text := by
    conv_rhs => rw [whole]
    exact List.sublist_append_left (code text) comment
  have cleaned : ((words (code text)).flatMap clean).Sublist (words (code text)).flatten := by
    rw [← List.flatMap_id]
    exact List.Sublist.flatMap_right _ fun word _ => clean_sublist word
  have tokenTexts : (lineTokens line text).flatMap Token.text =
      (words (code text)).flatMap clean := by
    rw [lineTokens, List.flatMap_map, List.flatMap_id', List.flatten_filter_ne_nil,
      List.flatMap_def]
  rw [tokenTexts]
  exact (cleaned.trans (flatten_words_sublist (code text))).trans kept

/-- The tokens are cut out of the text, in their order and without overlap. -/
theorem tokens_sublist (text : ByteString) : ((tokens text).flatMap Token.text).Sublist text := by
  have unnumbered : ((lines text).zipIdx 1).flatMap Prod.fst = (lines text).flatten := by
    rw [List.flatMap_def, List.zipIdx_map_fst]
  have each : ((tokens text).flatMap Token.text).Sublist (lines text).flatten := by
    rw [tokens, List.flatMap_assoc, ← unnumbered]
    exact List.Sublist.flatMap_right _ fun numbered _ => lineTokens_sublist numbered.2 numbered.1
  exact each.trans (flatten_lines_sublist text)

/-- A token gives at most one byte for each of its digits. -/
theorem Token.bytes_length_le {token : Token} {bytes : List UInt8}
    (read : token.bytes = .ok bytes) : bytes.length ≤ token.text.length := by
  by_cases good : token.Good
  · obtain rfl := Except.ok.inj ((bytes_of_good good).symm.trans read)
    unfold value
    split
    · simp_all
    · have digits := good.length
      simp_all
      omega
  · have earlierGood : ∀ token ∈ ([] : List Token), token.Good := List.forall_mem_nil Token.Good
    obtain ⟨problem, refused, _⟩ := @refused_of_not_good token good [] [] earlierGood
    rw [refused] at read
    simp at read

theorem readTokens_length_le (listed : List Token) :
    (readTokens listed).bytes.length ≤ (listed.flatMap Token.text).length := by
  induction listed with
  | nil => exact Nat.zero_le _
  | cons token rest inductionHypothesis =>
      rw [readTokens, List.flatMap_cons, List.length_append]
      split
      · exact Nat.zero_le _
      · rename_i bytes read
        rw [List.length_append]
        exact Nat.add_le_add (Token.bytes_length_le read) inductionHypothesis

/-- A reading has no more bytes than its text. -/
theorem read_length_le (text : ByteString) : (read text).bytes.length ≤ text.length := by
  by_cases present : tokens text = []
  · simp [read, present]
  · rw [read_eq_readTokens present]
    exact Nat.le_trans (readTokens_length_le (tokens text)) (tokens_sublist text).length_le

end Chip8.Rom.HexText

namespace Chip8

open Rom.HexText Text

/-- Every text has exactly one list of tokens, and the reading of the text is settled by it. -/
theorem hex_text_read_exactly (text : ByteString) :
    ∃ listed, (∀ other, TokensOf text other ↔ other = listed) ∧ (read text).Settled listed :=
  ⟨tokens text, fun _ => tokensOf_iff, settled_read text⟩

/-- The reading stops at a foreign letter in the second line. -/
theorem hex_text_read_exactly_to_foreign_letter :
    let text := ascii "00e0 # clear\n6,005 0X8g 1_2\n"
    let listed : List Token :=
      [⟨1, ascii "00e0"⟩, ⟨2, ascii "6005"⟩, ⟨2, ascii "8g"⟩, ⟨2, ascii "12"⟩]
    TokensOf text listed ∧ (read text).bytes = [0x00, 0xE0, 0x60, 0x05] ∧
      Refusal listed (read text).bytes
        (ascii "[loadhex] non-hex token '8g' at line 2\n") := by
  intro text listed
  obtain ⟨found, unique, settled⟩ := hex_text_read_exactly text
  have divided : TokensOf text listed := by
    rw [tokensOf_iff]
    decide
  obtain rfl := (unique listed).mp divided
  have problem : (read text).problem = some (.notHex ⟨2, ascii "8g"⟩) := by decide
  have message : Problem.message (.notHex ⟨2, ascii "8g"⟩) =
      ascii "[loadhex] non-hex token '8g' at line 2\n" := by
    rw [Problem.message, Wording.decimal_eq]
    decide +kernel
  exact ⟨divided, by decide, message ▸ settled.refused _ problem⟩

end Chip8
