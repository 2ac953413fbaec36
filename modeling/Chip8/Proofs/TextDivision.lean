import Chip8.Text

/-!
This file holds the divisions of a text. The lines of a text and the words of a line are described
by what they are together, and there is one such division for every text.
-/

namespace Chip8.Text

/-- Lines contain no line feed, and with one line feed between them they make up the text. -/
structure LinesOf (text : ByteString) (listed : List ByteString) : Prop where
  nonempty : listed ≠ []
  unbroken : ∀ line ∈ listed, 0x0A ∉ line
  joined : [0x0A].intercalate listed = text

/-- Words are runs without a blank that cannot be made longer, and only blanks stand between
them. -/
inductive WordsOf : ByteString → List ByteString → Prop
  | none : WordsOf [] []
  | blank {byte : UInt8} {rest : ByteString} {listed : List ByteString}
      (separates : isBlank byte = true) (following : WordsOf rest listed) :
      WordsOf (byte :: rest) listed
  | word {word rest : ByteString} {listed : List ByteString} (nonempty : word ≠ [])
      (unbroken : ∀ byte ∈ word, isBlank byte = false)
      (maximal : ∀ byte ∈ rest.head?, isBlank byte = true) (following : WordsOf rest listed) :
      WordsOf (word ++ rest) (word :: listed)

theorem split_eq_splitOnP (separates : UInt8 → Bool) (text : ByteString) :
    split separates text = text.splitOnP separates := by
  induction text with
  | nil => rfl
  | cons byte rest inductionHypothesis =>
      rw [split, List.splitOnP_cons_eq_if_modifyHead, ← inductionHypothesis]
      split
      · rfl
      · cases divided : split separates rest with
        | nil => exact absurd divided (split_ne_nil separates rest)
        | cons piece others => rfl

/-- A piece contains no separator. -/
theorem separates_of_mem_split {separates : UInt8 → Bool} {text piece : ByteString}
    (member : piece ∈ split separates text) : ∀ byte ∈ piece, separates byte = false := by
  induction text generalizing piece with
  | nil => simp_all [split]
  | cons byte rest inductionHypothesis =>
      cases divided : split separates rest with
      | nil => exact absurd divided (split_ne_nil separates rest)
      | cons first others =>
          rw [split, divided] at member
          cases separated : separates byte with
          | true =>
              rw [if_pos separated, List.mem_cons, ← divided] at member
              rcases member with rfl | later
              · simp
              · exact inductionHypothesis later
          | false =>
              rw [if_neg (by simp [separated]), List.mem_cons] at member
              rcases member with rfl | later
              · exact List.forall_mem_cons.mpr
                  ⟨separated, inductionHypothesis (divided ▸ List.mem_cons_self)⟩
              · exact inductionHypothesis (divided ▸ List.mem_cons_of_mem first later)

/-- The pieces hold every byte that is no separator. -/
theorem flatten_split (separates : UInt8 → Bool) (text : ByteString) :
    (split separates text).flatten = text.filter fun byte => !separates byte := by
  induction text with
  | nil => rfl
  | cons byte rest inductionHypothesis =>
      rw [split, List.filter_cons, ← inductionHypothesis]
      cases separated : separates byte with
      | true => rfl
      | false =>
          cases divided : split separates rest with
          | nil => exact absurd divided (split_ne_nil separates rest)
          | cons piece others => rfl

/-- No byte is read twice in the lines of a text. -/
theorem flatten_lines_sublist (text : ByteString) : (lines text).flatten.Sublist text := by
  rw [lines, flatten_split]
  exact List.filter_sublist

theorem flatten_words_sublist (text : ByteString) : (words text).flatten.Sublist text := by
  rw [words, List.flatten_filter_ne_nil, flatten_split]
  exact List.filter_sublist

theorem lines_eq_splitOn (text : ByteString) : lines text = text.splitOn 0x0A := by
  rw [lines, split_eq_splitOnP, List.splitOn_eq_splitOnP]

/-- No text is divided into lines in two ways. -/
theorem linesOf_iff {text : ByteString} {listed : List ByteString} :
    LinesOf text listed ↔ listed = lines text := by
  rw [lines_eq_splitOn]
  constructor
  · intro divided
    rw [← divided.joined, List.splitOn_intercalate 0x0A divided.unbroken divided.nonempty]
  · rintro rfl
    exact
      { nonempty := List.splitOn_ne_nil 0x0A text
        unbroken := by
          intro line member broken
          rw [← lines_eq_splitOn] at member
          exact absurd (separates_of_mem_split member 0x0A broken) (by decide)
        joined := List.intercalate_splitOn 0x0A }

theorem words_blank {byte : UInt8} (separates : isBlank byte = true) (rest : ByteString) :
    words (byte :: rest) = words rest := by
  simp [words, split, separates]

theorem words_append {word rest : ByteString} (nonempty : word ≠ [])
    (unbroken : ∀ byte ∈ word, isBlank byte = false)
    (maximal : ∀ byte ∈ rest.head?, isBlank byte = true) :
    words (word ++ rest) = word :: words rest := by
  simp only [words, split_eq_splitOnP]
  cases rest with
  | nil =>
      rw [List.append_nil, List.splitOnP_eq_singleton unbroken]
      simp [nonempty]
  | cons byte others =>
      have separates : isBlank byte = true := maximal byte rfl
      rw [List.splitOnP_append_cons_of_forall_mem unbroken byte separates,
        List.splitOnP_cons_eq_if_modifyHead, if_pos separates]
      simp [nonempty]

theorem WordsOf.eq_words {text : ByteString} {listed : List ByteString}
    (divided : WordsOf text listed) : listed = words text := by
  induction divided with
  | none => rfl
  | blank separates _ inductionHypothesis => rw [words_blank separates, inductionHypothesis]
  | word nonempty unbroken maximal _ inductionHypothesis =>
      rw [words_append nonempty unbroken maximal, inductionHypothesis]

/-- Nothing but blanks stands outside the words. -/
theorem WordsOf.blank_or_mem {text : ByteString} {listed : List ByteString}
    (divided : WordsOf text listed) {byte : UInt8} (member : byte ∈ text) :
    isBlank byte = true ∨ ∃ word ∈ listed, byte ∈ word := by
  induction divided with
  | none => simp at member
  | blank separates _ inductionHypothesis =>
      rcases List.mem_cons.mp member with rfl | later
      · exact .inl separates
      · exact inductionHypothesis later
  | @word word rest listed _ _ _ _ inductionHypothesis =>
      rcases List.mem_append.mp member with inside | later
      · exact .inr ⟨word, List.mem_cons_self, inside⟩
      · rcases inductionHypothesis later with blank | ⟨other, listedOther, inside⟩
        · exact .inl blank
        · exact .inr ⟨other, List.mem_cons_of_mem word listedOther, inside⟩

/-- A byte that is no blank makes the word behind it longer, or it is a word of its own. -/
theorem exists_wordsOf (text : ByteString) : ∃ listed, WordsOf text listed := by
  induction text with
  | nil => exact ⟨[], .none⟩
  | cons byte rest inductionHypothesis =>
      obtain ⟨listed, divided⟩ := inductionHypothesis
      cases blank : isBlank byte with
      | true => exact ⟨listed, .blank blank divided⟩
      | false =>
          have alone : ∀ other ∈ [byte], isBlank other = false := by simpa using blank
          cases divided with
          | none => exact ⟨[[byte]], .word (List.cons_ne_nil byte []) alone (by simp) .none⟩
          | blank separates following =>
              exact ⟨[byte] :: listed, .word (List.cons_ne_nil byte []) alone
                (by simpa using separates) (.blank separates following)⟩
          | @word word others listed _ unbroken maximal following =>
              have longer : ∀ other ∈ byte :: word, isBlank other = false :=
                List.forall_mem_cons.mpr ⟨blank, unbroken⟩
              exact ⟨(byte :: word) :: listed,
                .word (List.cons_ne_nil byte word) longer maximal following⟩

/-- No text is divided into words in two ways. -/
theorem wordsOf_iff {text : ByteString} {listed : List ByteString} :
    WordsOf text listed ↔ listed = words text := by
  constructor
  · exact WordsOf.eq_words
  · rintro rfl
    obtain ⟨others, divided⟩ := exists_wordsOf text
    exact divided.eq_words ▸ divided

end Chip8.Text
