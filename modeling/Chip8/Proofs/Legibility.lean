import Chip8.Proofs.NumeralWriting
import Chip8.Report

/-!
This file holds what can be read off a written text. A piece of a text is legible when its reader
also knows where it ends, either because all such pieces have one length or because a number ends
where its digits end.
-/

namespace Chip8.Text

open Rom.HexText (read_halves)

namespace Numeral

theorem digitOf_decimal (value : Nat) : ∀ byte ∈ decimal value, DigitOf 10 byte := by
  rw [← digitsIn_ten]
  exact digitOf_digitsIn (by decide) (by decide) value

/-- A written number is read back. -/
theorem number_decimal (value : Nat) : number 10 (decimal value) = value := by
  rw [← digitsIn_ten]
  exact number_digitsIn (by decide) (by decide) value

end Numeral

theorem hexByte_injective {first second : UInt8}
    (same : hexByte lowerDigit first = hexByte lowerDigit second) : first = second := by
  obtain ⟨high, rest⟩ := List.cons.inj same
  obtain ⟨low, -⟩ := List.cons.inj rest
  obtain ⟨-, -, one⟩ := @read_halves first _ _ (.inl rfl) (.inl rfl)
  obtain ⟨-, -, other⟩ := @read_halves second _ _ (.inl rfl) (.inl rfl)
  rw [← UInt8.toNat_inj, ← one, ← other, high, low]

theorem hexWord_injective {first second : UInt16}
    (same : hexWord lowerDigit first = hexWord lowerDigit second) : first = second := by
  obtain ⟨upper, lower⟩ := List.append_inj same rfl
  have high : first.toNat / 256 % 256 = second.toNat / 256 % 256 := by
    simpa [Nat.shiftRight_eq_div_pow] using congrArg UInt8.toNat (hexByte_injective upper)
  have low : first.toNat % 256 = second.toNat % 256 := by
    simpa using congrArg UInt8.toNat (hexByte_injective lower)
  have one := first.toNat_lt
  have other := second.toNat_lt
  rw [← UInt16.toNat_inj]
  omega

/-- A text that begins with the piece tells enough of its source for this agreement, and it tells
where the piece ends. -/
def Tells {Source : Type} (write : Source → ByteString) (Agree : Source → Source → Prop) : Prop :=
  ∀ first second after behind, write first ++ after = write second ++ behind →
    Agree first second ∧ after = behind

namespace Tells

variable {Source : Type} {write later : Source → ByteString} {Agree Follow : Source → Source → Prop}

/-- Pieces of one length end where they end. -/
theorem of_length (length : Nat) (fixed : ∀ source, (write source).length = length)
    (told : ∀ first second, write first = write second → Agree first second) :
    Tells write Agree := by
  intro first second after behind same
  obtain ⟨piece, rest⟩ := List.append_inj same ((fixed first).trans (fixed second).symm)
  exact ⟨told first second piece, rest⟩

theorem mono (one : Tells write Agree)
    (weaker : ∀ first second, Agree first second → Follow first second) : Tells write Follow := by
  intro first second after behind same
  obtain ⟨agree, ends⟩ := one _ _ _ _ same
  exact ⟨weaker _ _ agree, ends⟩

theorem append (one : Tells write Agree) (other : Tells later Follow) :
    Tells (fun source => write source ++ later source)
      (fun first second => Agree first second ∧ Follow first second) := by
  intro first second after behind same
  rw [List.append_assoc, List.append_assoc] at same
  obtain ⟨agree, rest⟩ := one _ _ _ _ same
  obtain ⟨follow, ends⟩ := other _ _ _ _ rest
  exact ⟨⟨agree, follow⟩, ends⟩

theorem constant (text : ByteString) :
    Tells (fun _ : Source => text) (fun _ _ => True) :=
  of_length text.length (fun _ => rfl) fun _ _ _ => trivial

/-- A heading tells nothing. -/
theorem heading (text : ByteString) (other : Tells later Follow) :
    Tells (fun source => text ++ later source) Follow :=
  ((constant text).append other).mono fun _ _ both => both.2

theorem closing (text : ByteString) (one : Tells write Agree) :
    Tells (fun source => write source ++ text) Agree :=
  (one.append (constant text)).mono fun _ _ both => both.1

/-- A number is read up to the byte behind it, which is no digit. -/
theorem number (value : Source → Nat) (text : ByteString)
    (stops : ∀ rest, (text ++ rest).takeWhile (Numeral.DigitOf 10 ·) = [])
    (other : Tells later Follow) :
    Tells (fun source => decimal (value source) ++ (text ++ later source))
      (fun first second => value first = value second ∧ Follow first second) := by
  have digits (source : Source) (rest : ByteString) :
      (decimal (value source) ++ (text ++ rest)).takeWhile (Numeral.DigitOf 10 ·) =
        decimal (value source) := by
    rw [List.takeWhile_append_of_pos, stops, List.append_nil]
    intro byte member
    exact decide_eq_true (Numeral.digitOf_decimal _ byte member)
  intro first second after behind same
  simp only [List.append_assoc] at same
  have piece := congrArg (List.takeWhile (Numeral.DigitOf 10 ·)) same
  rw [digits, digits] at piece
  have equal : value first = value second := by
    rw [← Numeral.number_decimal (value first), piece, Numeral.number_decimal]
  rw [piece] at same
  obtain ⟨follow, ends⟩ := other _ _ _ _
    (List.append_cancel_left (List.append_cancel_left same))
  exact ⟨⟨equal, follow⟩, ends⟩

/-- The pieces of a list are read one after the other. -/
theorem flatMap {Place : Type} {writes : Place → Source → ByteString}
    {Agrees : Place → Source → Source → Prop} (places : List Place)
    (each : ∀ place, Tells (writes place) (Agrees place)) :
    Tells (fun source => places.flatMap fun place => writes place source)
      (fun first second => ∀ place ∈ places, Agrees place first second) := by
  induction places with
  | nil => exact fun _ _ _ _ same => ⟨nofun, same⟩
  | cons place rest inductionHypothesis =>
      refine ((each place).append inductionHypothesis).mono ?_
      intro first second agree
      exact List.forall_mem_cons.mpr agree

end Tells

end Chip8.Text
