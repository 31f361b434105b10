import Mathlib.Data.List.Lex

/-!
# Go byte strings

Go's `string` and `[]byte` values are byte sequences, and Go orders strings
byte by byte: `Bytes.Less` is `List.Lex` over the order of `UInt8`.
-/

namespace GatewayMt

/-- Go strings and byte slices. -/
abbrev Bytes := List UInt8

/-- The byte of an ASCII character. -/
def ascii (c : Char) : UInt8 := c.toNat.toUInt8

/-- The bytes of an ASCII string literal. -/
def Bytes.ofAscii (s : String) : Bytes := s.toList.map ascii

/-- Go's `<` on strings. -/
def Bytes.Less (s s' : Bytes) : Prop := List.Lex (· < ·) s s'

theorem Bytes.Less.irrefl : ∀ s : Bytes, ¬ s.Less s
  | [], less => nomatch less
  | b :: s, less => by
      cases less with
      | cons rest => exact Bytes.Less.irrefl s rest
      | rel earlier => exact UInt8.lt_irrefl b earlier

theorem Bytes.Less.asymm {s s' : Bytes} (less : s.Less s') : ¬ s'.Less s := by
  unfold Bytes.Less at *
  induction less with
  | nil => exact nofun
  | cons _ ih =>
      intro back
      cases back with
      | cons rest => exact ih rest
      | rel earlier => exact UInt8.lt_irrefl _ earlier
  | rel earlier =>
      intro back
      cases back with
      | cons => exact UInt8.lt_irrefl _ earlier
      | rel later => exact UInt8.lt_asymm earlier later

theorem Bytes.Less.cons {s s' : Bytes} (b : UInt8) (less : s.Less s') :
    Bytes.Less (b :: s) (b :: s') :=
  List.Lex.cons less

/-- A common start leaves the order to what follows it. -/
theorem Bytes.less_append_left_iff (s t t' : Bytes) : (s ++ t).Less (s ++ t') ↔ t.Less t' := by
  induction s with
  | nil => rfl
  | cons b s ih =>
      refine ⟨fun less => ?_, fun less => (ih.mpr less).cons b⟩
      cases less with
      | cons rest => exact ih.mp rest
      | rel earlier => exact absurd earlier (UInt8.lt_irrefl b)

/-- Of two blocks of one length, the first decides. -/
theorem Bytes.Less.append_of_length_eq {s s' : Bytes} (less : s.Less s')
    (sameLength : s.length = s'.length) (t t' : Bytes) : (s ++ t).Less (s' ++ t') := by
  unfold Bytes.Less at *
  induction less with
  | nil => simp at sameLength
  | cons _ ih => exact .cons (ih (by simpa using sameLength))
  | rel earlier => exact .rel earlier

/-- A field of fixed width, followed by a separator, decides the order unless it
is the same in both. -/
theorem Bytes.less_of_field {x x' : Bytes} (sameLength : x.length = x'.length) (sep : UInt8)
    {rest rest' : Bytes} (order : x.Less x' ∨ x = x' ∧ rest.Less rest') :
    (x ++ sep :: rest).Less (x' ++ sep :: rest') := by
  rcases order with earlier | ⟨same, later⟩
  · exact earlier.append_of_length_eq sameLength _ _
  · rw [same, Bytes.less_append_left_iff]
    exact later.cons sep

/-- Codes that are ordered as the values they encode whenever the values differ,
and equal when the values are, are ordered exactly as the values. -/
theorem Bytes.less_iff_and_eq_iff {k k' : Bytes} {a b : Int} (forward : a < b → k.Less k')
    (backward : b < a → k'.Less k) (same : a = b → k = k') :
    (k.Less k' ↔ a < b) ∧ (k = k' ↔ a = b) := by
  refine ⟨⟨fun less => ?_, forward⟩, ⟨fun equal => ?_, same⟩⟩
  · rcases Int.lt_trichotomy a b with earlier | equal | later
    · exact earlier
    · exact absurd (same equal ▸ less) (Bytes.Less.irrefl _)
    · exact absurd (backward later) less.asymm
  · rcases Int.lt_trichotomy a b with earlier | equal | later
    · exact absurd (equal ▸ forward earlier) (Bytes.Less.irrefl _)
    · exact equal
    · exact absurd (equal ▸ backward later) (Bytes.Less.irrefl _)

end GatewayMt
