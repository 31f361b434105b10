import GatewayMt.Bytes

/-!
# UTF-8 and white space as Go's standard library reads them

`utf8.DecodeRune` reads the rune a byte string starts with.  A byte that does
not start the shortest encoding of a code point outside the surrogates decodes
as `RuneError` of one byte, so a loop that decodes rune after rune reads every
byte and takes the encoding up again at the next byte.  An ASCII byte is never
part of a longer sequence: a string cut at an ASCII byte decodes as its two
parts around that byte.  `utf8.DecodeLastRune` reads a string from its end and
`utf8.AppendRune` writes a rune.  `unicode.IsSpace` is the white space of
`strings.TrimSpace`, and `fmt`'s scanning has a table of the same ranges.
-/

namespace GatewayMt.Unicode

/-- Go's `rune`: a code point. -/
abbrev Rune := Nat

/-- `utf8.RuneError`, U+FFFD. -/
def runeError : Rune := 0xFFFD

/-- `utf8.RuneSelf`: the bytes below it are runes of one byte. -/
def runeSelf : Nat := 0x80

def maxRune : Rune := 0x10FFFF

def utfMax : Nat := 4

/-- A continuation byte: from `locb` to `hicb`. -/
def isCont (b : UInt8) : Bool := 0x80 ≤ b.toNat && b.toNat ≤ 0xBF

/-- `utf8.RuneStart(b)`: `b&0xC0 != 0x80`, so `b` is no continuation byte. -/
def runeStart (b : UInt8) : Bool := !isCont b

/-- The tables `first` and `acceptRanges`, by ranges of lead bytes: the bytes
from `lead` to `last` start a sequence of `size` bytes whose second byte lies
between `lo` and `hi`.  Every other byte from `0x80` on is `xx`. -/
def leadRanges : List (Nat × Nat × Nat × Nat × Nat) :=
  [(0xC2, 0xDF, 2, 0x80, 0xBF), (0xE0, 0xE0, 3, 0xA0, 0xBF), (0xE1, 0xEC, 3, 0x80, 0xBF),
    (0xED, 0xED, 3, 0x80, 0x9F), (0xEE, 0xEF, 3, 0x80, 0xBF), (0xF0, 0xF0, 4, 0x90, 0xBF),
    (0xF1, 0xF3, 4, 0x80, 0xBF), (0xF4, 0xF4, 4, 0x80, 0x8F)]

/-- `first[b]` with its accept range: the size of the sequence `b` starts and
the range of its second byte; `none` for ASCII (`as`) and for `xx`. -/
def first (b : Nat) : Option (Nat × Nat × Nat) :=
  (leadRanges.find? fun (lead, last, _) => lead ≤ b && b ≤ last).map
    fun (_, _, sequence) => sequence

/-- `utf8.DecodeRune(p)`: the first rune of `p` and its size, the masks
`mask2`, `mask3`, `mask4` and `maskx` taken as remainders; `RuneError` of size
1 where no valid sequence starts, and of size 0 for no input. -/
def decodeRune (p : Bytes) : Rune × Nat :=
  match p with
  | [] => (runeError, 0)
  | p0 :: _ =>
      if p0.toNat < runeSelf then (p0.toNat, 1)
      else match first p0.toNat with
        | none => (runeError, 1)
        | some (sz, lo, hi) =>
            let b1 := (p.getD 1 0).toNat
            let b2 := p.getD 2 0
            let b3 := p.getD 3 0
            if p.length < sz ∨ b1 < lo ∨ hi < b1 then (runeError, 1)
            else if sz ≤ 2 then (p0.toNat % 32 * 64 + b1 % 64, 2)
            else if isCont b2 = false then (runeError, 1)
            else if sz ≤ 3 then ((p0.toNat % 16 * 64 + b1 % 64) * 64 + b2.toNat % 64, 3)
            else if isCont b3 = false then (runeError, 1)
            else (((p0.toNat % 8 * 64 + b1 % 64) * 64 + b2.toNat % 64) * 64 + b3.toNat % 64, 4)

/-- The loop of `utf8.DecodeLastRune` that looks back for the start of the last
rune, `earlier` being the bytes before the last one, last first: how far back
the first `RuneStart` among the `UTFMax - 1` nearest of them stands, or one
byte further back than they reach when none is one. -/
def lastRuneBack (earlier : Bytes) : Nat :=
  match (earlier.take (utfMax - 1)).findIdx? runeStart with
  | some j => j + 1
  | none => min earlier.length utfMax

/-- `utf8.DecodeLastRune(p)`: the last rune of `p` and its size; the result is
`RuneError` of size 1 unless the bytes from where `lastRuneBack` points decode
to a rune that ends `p`. -/
def decodeLastRune (p : Bytes) : Rune × Nat :=
  match p.reverse with
  | [] => (runeError, 0)
  | last :: earlier =>
      if last.toNat < runeSelf then (last.toNat, 1)
      else
        let back := lastRuneBack earlier
        let decoded := decodeRune (p.drop (p.length - 1 - back))
        if decoded.2 ≠ back + 1 then (runeError, 1) else decoded

/-- `utf8.AppendRune(p, r)`: `p` followed by the encoding of `r`, the shifts
taken as quotients; a code point past `MaxRune` or among the surrogates is
written as `RuneError`. -/
def appendRune (p : Bytes) (r : Rune) : Bytes :=
  if r ≤ 0x7F then p ++ [r.toUInt8]
  else if r ≤ 0x7FF then p ++ [(0xC0 + r / 64).toUInt8, (0x80 + r % 64).toUInt8]
  else
    let r := if r > maxRune ∨ (0xD800 ≤ r ∧ r ≤ 0xDFFF) then runeError else r
    if r ≤ 0xFFFF then
      p ++ [(0xE0 + r / 4096).toUInt8, (0x80 + r / 64 % 64).toUInt8, (0x80 + r % 64).toUInt8]
    else
      p ++ [(0xF0 + r / 262144).toUInt8, (0x80 + r / 4096 % 64).toUInt8,
        (0x80 + r / 64 % 64).toUInt8, (0x80 + r % 64).toUInt8]

/-- The loop `for len(p) > 0 { r, size := utf8.DecodeRune(p); ...; p = p[size:] }`
taken byte by byte, `skip` counting the bytes of the last rune still to pass:
the runes of the input with their sizes, in order. -/
def runesFrom : Nat → Bytes → List (Rune × Nat)
  | _, [] => []
  | 0, b :: p => decodeRune (b :: p) :: runesFrom ((decodeRune (b :: p)).2 - 1) p
  | skip + 1, _ :: p => runesFrom skip p

/-- The runes of `p`, as `for range` reads them. -/
def runes (p : Bytes) : List (Rune × Nat) := runesFrom 0 p

/-- The loop `for i := len(s); i > 0; { r, size := utf8.DecodeLastRune(s[0:i]); i -= size }`
over `s[0:i]` reversed, `skip` counting the bytes of the last rune still to
pass: the runes from the end of `s`, last first. -/
def lastRunesFrom : Nat → Bytes → List (Rune × Nat)
  | _, [] => []
  | 0, b :: earlier =>
      decodeLastRune (b :: earlier).reverse ::
        lastRunesFrom ((decodeLastRune (b :: earlier).reverse).2 - 1) earlier
  | skip + 1, _ :: earlier => lastRunesFrom skip earlier

def lastRunes (s : Bytes) : List (Rune × Nat) := lastRunesFrom 0 s.reverse

/-- `unicode.IsSpace`: in Latin-1 `'\t'`, `'\n'`, `'\v'`, `'\f'`, `'\r'`, `' '`,
U+0085 and U+00A0, above it the `White_Space` ranges.  `fmt`'s table `space`
lists the same ranges. -/
def isSpace (r : Rune) : Bool :=
  if r ≤ 0xFF then
    r == 9 || r == 10 || r == 11 || r == 12 || r == 13 || r == 32 || r == 0x85 || r == 0xA0
  else
    r == 0x1680 || (0x2000 ≤ r && r ≤ 0x200A) || r == 0x2028 || r == 0x2029 || r == 0x202F ||
      r == 0x205F || r == 0x3000

/-! ## ASCII bytes end every sequence -/

/-- What `first` gives: a lead byte from `0xC2` on, a sequence of 2 to 4 bytes,
and a second byte above ASCII. -/
theorem first_spec {b size lo hi : Nat} (starts : first b = some (size, lo, hi)) :
    0xC2 ≤ b ∧ runeSelf ≤ lo ∧ 2 ≤ size ∧ size ≤ 4 := by
  have table : ∀ range ∈ leadRanges, 0xC2 ≤ range.1 ∧
      runeSelf ≤ range.2.2.2.1 ∧ 2 ≤ range.2.2.1 ∧ range.2.2.1 ≤ 4 := by decide
  obtain ⟨⟨lead, last, sequence⟩, found, same⟩ := Option.map_eq_some'.mp starts
  simp only at same
  subst same
  have within := List.find?_some found
  have facts := table _ (List.mem_of_find?_eq_some found)
  simp only [Bool.and_eq_true, decide_eq_true_eq] at within facts
  exact ⟨by omega, facts.2⟩

theorem isCont_of_ascii {c : UInt8} (ascii : c.toNat < runeSelf) : isCont c = false := by
  simp only [isCont, runeSelf] at *
  simp only [Bool.and_eq_false_iff, decide_eq_false_iff_not]
  omega

theorem decodeRune_ascii {c : UInt8} (ascii : c.toNat < runeSelf) (p : Bytes) :
    decodeRune (c :: p) = (c.toNat, 1) := by
  simp [decodeRune, ascii]

/-- What follows a sequence cut short by an ASCII byte does not change how the
sequence decodes. -/
theorem decodeRune_append_ascii {a : Bytes} (nonempty : a ≠ []) {c : UInt8}
    (ascii : c.toNat < runeSelf) (b : Bytes) : decodeRune (a ++ c :: b) = decodeRune a := by
  obtain ⟨p0, p, rfl⟩ := List.exists_cons_of_ne_nil nonempty
  by_cases ascii0 : p0.toNat < runeSelf
  · simp [decodeRune, ascii0]
  cases starts : first p0.toNat with
  | none => simp [decodeRune, ascii0, starts]
  | some sequence =>
      obtain ⟨sz, lo, hi⟩ := sequence
      obtain ⟨-, high, sizes⟩ := first_spec starts
      have below : c.toNat < lo := by omega
      have notCont := isCont_of_ascii ascii
      obtain rfl | rfl | rfl : sz = 2 ∨ sz = 3 ∨ sz = 4 := by omega
      all_goals
        rcases p with _ | ⟨p1, _ | ⟨p2, _ | ⟨p3, p⟩⟩⟩ <;>
          simp_arith [decodeRune, ascii0, starts, below, notCont]

theorem decodeRune_size (p0 : UInt8) (p : Bytes) :
    1 ≤ (decodeRune (p0 :: p)).2 ∧ (decodeRune (p0 :: p)).2 ≤ p.length + 1 := by
  by_cases ascii0 : p0.toNat < runeSelf
  · simp [decodeRune, ascii0]
  cases starts : first p0.toNat with
  | none => simp [decodeRune, ascii0, starts]
  | some sequence =>
      obtain ⟨sz, lo, hi⟩ := sequence
      have sizes := (first_spec starts).2.2
      simp only [decodeRune, ascii0, starts, if_false, List.length_cons]
      split_ifs <;> simp only <;> omega

/-- A continuation byte starts no sequence. -/
theorem decodeRune_cont {b : UInt8} (cont : isCont b = true) (p : Bytes) :
    decodeRune (b :: p) = (runeError, 1) := by
  simp only [isCont, Bool.and_eq_true, decide_eq_true_eq] at cont
  cases starts : first b.toNat with
  | none => simp [decodeRune, starts, runeSelf, show ¬ b.toNat < 128 by omega]
  | some sequence =>
      obtain ⟨sz, lo, hi⟩ := sequence
      have := (first_spec starts).1
      omega

/-- A lead byte alone is no sequence. -/
theorem decodeRune_single {b : UInt8} (high : ¬ b.toNat < runeSelf) :
    decodeRune [b] = (runeError, 1) := by
  cases starts : first b.toNat with
  | none => simp [decodeRune, starts, high]
  | some sequence =>
      obtain ⟨sz, lo, hi⟩ := sequence
      have short : [b].length < sz := (first_spec starts).2.2.1
      simp only [decodeRune, starts, high, if_false, if_pos (Or.inl short)]

/-- Decoding stops at an ASCII byte: the runes before it, the byte, and the
runes after it. -/
theorem runesFrom_append_ascii {c : UInt8} (ascii : c.toNat < runeSelf) (b : Bytes) :
    ∀ {a : Bytes} {skip : Nat}, skip ≤ a.length →
      runesFrom skip (a ++ c :: b) = runesFrom skip a ++ (c.toNat, 1) :: runes b
  | [], 0, _ => by simp [runesFrom, runes, decodeRune_ascii ascii]
  | p0 :: a, 0, _ => by
      have size := decodeRune_size p0 a
      rw [List.cons_append, runesFrom, runesFrom, ← List.cons_append,
        decodeRune_append_ascii (List.cons_ne_nil p0 a) ascii,
        runesFrom_append_ascii ascii b (by omega), List.cons_append]
  | _ :: a, skip + 1, within => by
      rw [List.cons_append, runesFrom, runesFrom,
        runesFrom_append_ascii ascii b (by simp at within; omega)]

theorem runes_append_ascii (a : Bytes) {c : UInt8} (ascii : c.toNat < runeSelf) (b : Bytes) :
    runes (a ++ c :: b) = runes a ++ (c.toNat, 1) :: runes b :=
  runesFrom_append_ascii ascii b (Nat.zero_le _)

/-- `utf8.AppendRune` writes an ASCII rune as its byte. -/
theorem appendRune_ascii (p : Bytes) {b : UInt8} (ascii : b.toNat < runeSelf) :
    appendRune p b.toNat = p ++ [b] := by
  have byte : b.toNat.toUInt8 = b :=
    UInt8.toNat.inj (by simp [Nat.toUInt8, UInt8.toNat, UInt8.ofNat])
  simp only [runeSelf] at ascii
  simp [appendRune, show b.toNat ≤ 0x7F by omega, byte]

/-! ## Reading from the end -/

theorem lastRuneBack_le (earlier : Bytes) : lastRuneBack earlier ≤ earlier.length := by
  unfold lastRuneBack
  split
  · rename_i j found
    have := (List.findIdx?_eq_some_iff_findIdx_eq.mp found).1
    simp only [List.length_take] at this
    omega
  · exact Nat.min_le_left _ _

/-- Before a rune start, the look back stops where it stopped without it, or,
when it went through bytes that all continue a sequence, at the rune start. -/
theorem lastRuneBack_append {c : UInt8} (start : runeStart c = true) (earlier l : Bytes) :
    lastRuneBack (earlier ++ c :: l) = lastRuneBack earlier ∨
      (lastRuneBack (earlier ++ c :: l) = earlier.length + 1 ∧
        lastRuneBack earlier = earlier.length ∧ ∀ y ∈ earlier, runeStart y = false) := by
  unfold lastRuneBack
  rw [List.take_append_eq_append_take, List.findIdx?_append]
  cases found : (earlier.take (utfMax - 1)).findIdx? runeStart with
  | some j => exact .inl rfl
  | none =>
      simp only [Option.none_or, List.length_append, List.length_cons, utfMax] at found ⊢
      by_cases long : 4 ≤ earlier.length
      · left
        simp only [show 4 - 1 - earlier.length = 0 by omega, List.take_zero, List.findIdx?_nil,
          Option.map_none']
        omega
      · right
        rw [List.take_of_length_le (by omega)] at found ⊢
        refine ⟨?_, by omega, List.findIdx?_eq_none_iff.mp found⟩
        obtain three | fewer : earlier.length = 3 ∨ earlier.length < 3 := by omega
        · simp only [three, Nat.sub_self, List.take_zero, List.findIdx?_nil, Option.map_none']
          omega
        · obtain ⟨k, more⟩ : ∃ k, 4 - 1 - earlier.length = k + 1 :=
            ⟨2 - earlier.length, by omega⟩
          simp [more, start]

theorem decodeLastRune_size (last : UInt8) (earlier : Bytes) :
    1 ≤ (decodeLastRune (last :: earlier).reverse).2 ∧
      (decodeLastRune (last :: earlier).reverse).2 ≤ earlier.length + 1 := by
  have back := lastRuneBack_le earlier
  simp only [decodeLastRune, List.reverse_reverse]
  split_ifs <;> simp only [ne_eq, not_not] at * <;> omega

theorem decodeRune_reverse_cont {last : UInt8} (high : ¬ last.toNat < runeSelf) {earlier : Bytes}
    (cont : ∀ y ∈ earlier, runeStart y = false) :
    decodeRune (last :: earlier).reverse = (runeError, 1) := by
  rcases List.eq_nil_or_concat earlier with rfl | ⟨e0, y, rfl⟩
  · exact decodeRune_single high
  · have continues : isCont y = true := by simpa [runeStart] using cont y (by simp)
    simpa using decodeRune_cont continues (e0.reverse ++ [last])

/-- An ASCII byte before the last rune's bytes does not change how they decode:
the look back stops at it at the latest, and from it one byte decodes where the
look back asks for more. -/
theorem decodeLastRune_append_ascii (a : Bytes) {c : UInt8} (ascii : c.toNat < runeSelf)
    (last : UInt8) (earlier : Bytes) :
    decodeLastRune (a ++ c :: (last :: earlier).reverse) =
      decodeLastRune (last :: earlier).reverse := by
  have reversed :
      (a ++ c :: (last :: earlier).reverse).reverse = last :: (earlier ++ c :: a.reverse) := by
    simp
  by_cases ascii0 : last.toNat < runeSelf
  · simp [decodeLastRune, reversed, ascii0]
  have start : runeStart c = true := by simp [runeStart, isCont_of_ascii ascii]
  have within := lastRuneBack_le earlier
  have length :
      (a ++ c :: (last :: earlier).reverse).length = a.length + 1 + (earlier.length + 1) := by
    simp; omega
  simp only [decodeLastRune, reversed, List.reverse_reverse, ascii0, if_false, length]
  rcases lastRuneBack_append start earlier a.reverse with same | ⟨back', back, cont⟩
  · -- the look back stops after the ASCII byte, at the same byte
    rw [same, List.append_cons,
      show a.length + 1 + (earlier.length + 1) - 1 - lastRuneBack earlier =
        (a ++ [c]).length + ((last :: earlier).reverse.length - 1 - lastRuneBack earlier) by
          simp; omega,
      List.drop_append]
  · -- from the ASCII byte one byte decodes, and from the first of `earlier` no rune
    rw [back', back,
      show a.length + 1 + (earlier.length + 1) - 1 - (earlier.length + 1) = a.length by omega,
      List.drop_left' rfl, decodeRune_ascii ascii,
      show (last :: earlier).reverse.length - 1 - earlier.length = 0 by simp, List.drop_zero,
      decodeRune_reverse_cont ascii0 cont]
    simp

/-- Read from the end, decoding stops at an ASCII byte too: the runes after it,
last first, the byte, and the runes before it. -/
theorem lastRunesFrom_append_ascii {c : UInt8} (ascii : c.toNat < runeSelf) (a : Bytes) :
    ∀ {b : Bytes} {skip : Nat}, skip ≤ b.length →
      lastRunesFrom skip (b ++ c :: a) = lastRunesFrom skip b ++ (c.toNat, 1) :: lastRunesFrom 0 a
  | [], 0, _ => by simp [lastRunesFrom, decodeLastRune, ascii]
  | last :: earlier, 0, _ => by
      have decoded : decodeLastRune (last :: (earlier ++ c :: a)).reverse =
          decodeLastRune (last :: earlier).reverse := by
        rw [← decodeLastRune_append_ascii a.reverse ascii last earlier]
        simp
      have size := decodeLastRune_size last earlier
      rw [List.cons_append, lastRunesFrom, lastRunesFrom, decoded,
        lastRunesFrom_append_ascii ascii a (by omega), List.cons_append]
  | _ :: earlier, skip + 1, within => by
      rw [List.cons_append, lastRunesFrom, lastRunesFrom,
        lastRunesFrom_append_ascii ascii a (by simp at within; omega)]

theorem lastRunes_append_ascii (a : Bytes) {c : UInt8} (ascii : c.toNat < runeSelf) (b : Bytes) :
    lastRunes (a ++ c :: b) = lastRunes b ++ (c.toNat, 1) :: lastRunes a := by
  rw [lastRunes, List.reverse_append, List.reverse_cons, List.append_assoc, List.singleton_append,
    lastRunesFrom_append_ascii ascii _ (Nat.zero_le _)]
  rfl

end GatewayMt.Unicode
