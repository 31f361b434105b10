import GatewayMt.Unicode
import Mathlib.Data.List.Basic

/-!
# The basic usage of the gateway command

Unless `--advanced` is among the arguments, `setUsageFunc` replaces the usage
text: it prints each line that does not describe a flag, and the line of a flag
only when the flag is annotated as basic.  `findBoolFlagEarly` decides on
`--advanced` before the flags are parsed: the first argument that starts with
`--advanced` decides, unless it is `--advanced=false`, and an argument `false`
right after it turns the flag off.
-/

namespace GatewayMt.Cmd

def dashes : Bytes := .ofAscii "--"

/-- `findBoolFlagEarly(flagName)`, with `args` for `os.Args`. -/
def findBoolFlagEarly (args : List Bytes) (flagName : Bytes) : Bool :=
  match args with
  | [] => false
  | arg :: rest =>
      if !(dashes ++ flagName).isPrefixOf arg then findBoolFlagEarly rest flagName
      else if rest.head? = some (.ofAscii "false") then false
      else if !(dashes ++ flagName ++ .ofAscii "=false").isPrefixOf arg then true
      else findBoolFlagEarly rest flagName

/-- `arg` starts with `--flagName`. -/
def Names (flagName arg : Bytes) : Prop := (dashes ++ flagName).isPrefixOf arg = true

instance (flagName arg : Bytes) : Decidable (Names flagName arg) :=
  inferInstanceAs (Decidable (_ = true))

theorem findBoolFlagEarly_skip {flagName : Bytes} {before : List Bytes}
    (skipped : ∀ arg ∈ before, ¬ Names flagName arg) (args : List Bytes) :
    findBoolFlagEarly (before ++ args) flagName = findBoolFlagEarly args flagName := by
  induction before with
  | nil => rfl
  | cons arg before ih =>
      have other : (dashes ++ flagName).isPrefixOf arg = false :=
        Bool.eq_false_iff.mpr (skipped arg (List.mem_cons_self _ _))
      rw [List.cons_append, findBoolFlagEarly, if_pos (by rw [other]; rfl),
        ih fun a mem => skipped a (List.mem_cons_of_mem _ mem)]

/-- The first argument that names the flag decides, unless it is `--flagName=false`
not followed by `false`. -/
theorem findBoolFlagEarly_first {flagName arg : Bytes} {before after : List Bytes}
    (skipped : ∀ a ∈ before, ¬ Names flagName a) (names : Names flagName arg) :
    findBoolFlagEarly (before ++ arg :: after) flagName =
      if after.head? = some (.ofAscii "false") then false
      else if !(dashes ++ flagName ++ .ofAscii "=false").isPrefixOf arg then true
      else findBoolFlagEarly after flagName := by
  rw [findBoolFlagEarly_skip skipped, findBoolFlagEarly, if_neg (by rw [names]; decide)]

/-- When one argument names the flag, `--flagName` and `--flagName=v` turn it on
unless the next argument is `false`, and `--flagName=false…` does not. -/
theorem findBoolFlagEarly_one_occurrence {flagName arg : Bytes} {before after : List Bytes}
    (names : Names flagName arg) (others : ∀ a ∈ before ++ after, ¬ Names flagName a) :
    findBoolFlagEarly (before ++ arg :: after) flagName =
      (after.head? != some (.ofAscii "false") &&
        !(dashes ++ flagName ++ .ofAscii "=false").isPrefixOf arg) := by
  have rest : findBoolFlagEarly after flagName = false := by
    simpa using findBoolFlagEarly_skip (fun a mem => others a (List.mem_append_right _ mem)) []
  rw [findBoolFlagEarly_first (fun a mem => others a (List.mem_append_left _ mem)) names, rest]
  split <;> simp_all

theorem findBoolFlagEarly_one_occurrence_advanced_false :
    Names (.ofAscii "advanced") (.ofAscii "--advanced") ∧
      (∀ a ∈ [Bytes.ofAscii "gateway"] ++ [.ofAscii "false", .ofAscii "run"],
        ¬ Names (.ofAscii "advanced") a) ∧
      findBoolFlagEarly ([.ofAscii "gateway"] ++ .ofAscii "--advanced" ::
          [.ofAscii "false", .ofAscii "run"]) (.ofAscii "advanced") =
        (([.ofAscii "false", .ofAscii "run"] : List Bytes).head? != some (.ofAscii "false") &&
          !(dashes ++ Bytes.ofAscii "advanced" ++ .ofAscii "=false").isPrefixOf
            (Bytes.ofAscii "--advanced")) :=
  ⟨by decide, by decide, findBoolFlagEarly_one_occurrence (by decide) (by decide)⟩

/-! ## The usage text -/

open Unicode

/-- `asciiSpace` of package `strings`. -/
def asciiSpace (c : UInt8) : Bool :=
  c == 9 || c == 10 || c == 11 || c == 12 || c == 13 || c == 32

/-- The loop of `strings.indexFunc` from byte offset `i` on. -/
def indexFrom (f : Rune → Bool) (truth : Bool) (i : Nat) : List (Rune × Nat) → Option Nat
  | [] => none
  | (r, size) :: rest => if f r == truth then some i else indexFrom f truth (i + size) rest

/-- `strings.indexFunc(s, f, truth)`: the byte offset of the first rune `r`
with `f r = truth`; `none` for `-1`. -/
def indexFunc (s : Bytes) (f : Rune → Bool) (truth : Bool) : Option Nat :=
  indexFrom f truth 0 (runes s)

/-- The loop of `strings.lastIndexFunc` down from byte offset `i`. -/
def lastIndexFrom (f : Rune → Bool) (truth : Bool) (i : Nat) : List (Rune × Nat) → Option Nat
  | [] => none
  | (r, size) :: rest =>
      if f r == truth then some (i - size) else lastIndexFrom f truth (i - size) rest

/-- `strings.lastIndexFunc(s, f, truth)`: the byte offset of the last rune `r`
with `f r = truth`, reading back from the end; `none` for `-1`. -/
def lastIndexFunc (s : Bytes) (f : Rune → Bool) (truth : Bool) : Option Nat :=
  lastIndexFrom f truth s.length (lastRunes s)

/-- `strings.TrimLeftFunc(s, f)`. -/
def trimLeftFunc (s : Bytes) (f : Rune → Bool) : Bytes :=
  match indexFunc s f false with
  | none => []
  | some i => s.drop i

/-- `strings.TrimRightFunc(s, f)`: up to the end of the last rune `f` rejects,
whose width is read forward again when it does not start with an ASCII byte. -/
def trimRightFunc (s : Bytes) (f : Rune → Bool) : Bytes :=
  let i := match lastIndexFunc s f false with
    | none => 0
    | some i =>
        if (s.drop i).head?.any (fun c => runeSelf ≤ c.toNat) then i + (decodeRune (s.drop i)).2
        else i + 1
  s.take i

/-- `strings.TrimFunc(s, f)`. -/
def trimFunc (s : Bytes) (f : Rune → Bool) : Bytes := trimRightFunc (trimLeftFunc s f) f

/-- `strings.TrimSpace`: ASCII white space is skipped from the start and from
the end byte by byte, and at a non-ASCII byte the rest is left to `TrimFunc`
or `TrimRightFunc` with `unicode.IsSpace`. -/
def trimSpace (s : Bytes) : Bytes :=
  let ascii := fun c : UInt8 => c.toNat < runeSelf && asciiSpace c
  match s.dropWhile ascii with
  | [] => []
  | c :: rest =>
      if runeSelf ≤ c.toNat then trimFunc (c :: rest) isSpace
      else match (c :: rest).reverse.dropWhile ascii with
        | [] => []
        | d :: earlier =>
            if runeSelf ≤ d.toNat then trimRightFunc (d :: earlier).reverse isSpace
            else (d :: earlier).reverse

/-- `fmt.Sscanf(line, "--%s", &flagName)`: the literal `--` (a rune read is `-`
exactly when its byte is), then `SkipSpace`, which stops at a newline with an
error, and the runes up to the next white space, written back with
`utf8.AppendRune`; `none` where `Sscanf` returns an error, as at the end of
the input. -/
def scanFlagName (line : Bytes) : Option Bytes :=
  if dashes.isPrefixOf line then
    match (runes (line.drop 2)).dropWhile fun (r, _) => isSpace r && r != 10 with
    | [] => none
    | (r, size) :: rest =>
        if r = 10 then none
        else some ((((r, size) :: rest).takeWhile fun (r, _) => !isSpace r).foldl
          (fun flagName (r, _) => appendRune flagName r) [])
  else none

/-- What the usage function of `setUsageFunc` prints for the lines of
`cmd.UsageString()`, `basicFlags` being the names of the basic flags. -/
def usageLines (basicFlags : List Bytes) (lines : List Bytes) : List Bytes :=
  lines.flatMap fun line =>
    let trimmedLine := trimSpace line
    match scanFlagName trimmedLine with
    | none => [line]
    | some flagName =>
        (if !dashes.isPrefixOf trimmedLine then [line] else []) ++
          (basicFlags.filter (· == flagName)).map fun _ => line

/-- The check that a scanned line starts with `--` never fails. -/
theorem dashes_of_scanFlagName {line flagName : Bytes} (scanned : scanFlagName line = some flagName) :
    dashes.isPrefixOf line = true := by
  unfold scanFlagName at scanned
  split at scanned
  · assumption
  · cases scanned

/-- A line that does not describe a flag is printed once, and the line of a
flag once for each time the flag is among `basicFlags`. -/
theorem usageLines_line (basicFlags : List Bytes) (line : Bytes) :
    usageLines basicFlags [line] =
      match scanFlagName (trimSpace line) with
      | none => [line]
      | some flagName => List.replicate (basicFlags.filter (· == flagName)).length line := by
  simp only [usageLines, List.flatMap_cons, List.flatMap_nil, List.append_nil]
  split
  · rfl
  · rename_i flagName scanned
    rw [dashes_of_scanFlagName scanned, List.map_const']
    rfl

theorem length_filter_beq {flags : List Bytes} (distinct : flags.Nodup) (flagName : Bytes) :
    (flags.filter (· == flagName)).length = if flagName ∈ flags then 1 else 0 := by
  induction flags with
  | nil => rfl
  | cons flag flags ih =>
      obtain ⟨notMem, distinct⟩ := List.nodup_cons.mp distinct
      by_cases same : flag = flagName
      · subst same
        simp [List.filter_cons, ih distinct, notMem]
      · simp [List.filter_cons, ih distinct, same, Ne.symm same]

/-- With distinct flag names, the usage shows every line that is not a flag's,
and a flag's line exactly when the flag is basic. -/
theorem usageLines_basic {basicFlags : List Bytes} (distinct : basicFlags.Nodup) (lines : List Bytes) :
    usageLines basicFlags lines = lines.filter fun line =>
      match scanFlagName (trimSpace line) with
      | none => true
      | some flagName => flagName ∈ basicFlags := by
  induction lines with
  | nil => rfl
  | cons line lines ih =>
      rw [show line :: lines = [line] ++ lines from rfl, usageLines, List.flatMap_append,
        ← usageLines, ← usageLines, usageLines_line, ih, List.filter_append]
      congr 1
      split
      · simp [*]
      · rw [length_filter_beq distinct]
        split <;> simp [*]

theorem usageLines_basic_two_flags :
    [Bytes.ofAscii "advanced", .ofAscii "config-dir"].Nodup ∧
      usageLines [.ofAscii "advanced", .ofAscii "config-dir"]
          [.ofAscii "Flags:", .ofAscii "      --access string   the serialized access",
            .ofAscii "      --advanced        if used in with -h, print advanced flags help"] =
        [Bytes.ofAscii "Flags:", .ofAscii "      --access string   the serialized access",
            .ofAscii "      --advanced        if used in with -h, print advanced flags help"].filter
          fun line => match scanFlagName (trimSpace line) with
            | none => true
            | some flagName => flagName ∈ [Bytes.ofAscii "advanced", .ofAscii "config-dir"] :=
  ⟨by decide, usageLines_basic (by decide) _⟩

/-! ## The lines `pflag` writes for flags

A flag's line is its indentation, then `--name` when the flag has no shorthand
and `-x, --name` when it has one, then white space and the rest.  `TrimSpace`
keeps the printable ASCII bytes of the name, and `Sscanf` reads the name back
exactly, so the usage shows such a line when the flag is basic; a line that
starts with a shorthand fails the scan and is always shown.
-/

/-- ASCII white space is white space of `unicode.IsSpace`, below `!`. -/
theorem asciiSpace_spec {c : UInt8} (space : asciiSpace c = true) :
    c.toNat ≤ 32 ∧ isSpace c.toNat = true := by
  simp only [asciiSpace, Bool.or_eq_true, beq_iff_eq] at space
  rcases space with ((((rfl | rfl) | rfl) | rfl) | rfl) | rfl <;> decide

/-- A printable ASCII byte other than the space, as `pflag` writes flag names
and shorthands. -/
def Visible (b : UInt8) : Prop := 0x21 ≤ b.toNat ∧ b.toNat ≤ 0x7E

instance : DecidablePred Visible := fun _ => inferInstanceAs (Decidable (_ ∧ _))

theorem Visible.ascii {b : UInt8} (visible : Visible b) : b.toNat < runeSelf := by
  unfold Visible at visible
  simp only [runeSelf]
  omega

theorem Visible.not_asciiSpace {b : UInt8} (visible : Visible b) : asciiSpace b = false :=
  Bool.eq_false_iff.mpr fun space => by
    have := (asciiSpace_spec space).1
    unfold Visible at visible
    omega

theorem Visible.not_isSpace {b : UInt8} (visible : Visible b) : isSpace b.toNat = false := by
  unfold Visible at visible
  simp only [isSpace, if_pos (show b.toNat ≤ 0xFF by omega)]
  simp only [Bool.or_eq_false_iff, beq_eq_false_iff_ne, ne_eq]
  and_intros <;> intro same <;> rw [same] at visible <;> exact absurd visible (by decide)

/-- Reading back from offset `i` over the runes of `l` and then a rune that
stops the search, the search stops at that rune or later. -/
theorem lastIndexFrom_stops {f : Rune → Bool} {truth : Bool} {c : UInt8}
    (stops : f c.toNat = truth) (rest : List (Rune × Nat)) :
    ∀ (l : Bytes) (skip i : Nat), skip ≤ l.length → l.length - skip ≤ i →
      ∃ j, lastIndexFrom f truth i (lastRunesFrom skip l ++ (c.toNat, 1) :: rest) = some j ∧
        i - (l.length - skip) - 1 ≤ j
  | [], 0, i, _, _ => ⟨i - 1, by simp [lastIndexFrom, lastRunesFrom, stops], by omega⟩
  | last :: earlier, 0, i, _, room => by
      have size := decodeLastRune_size last earlier
      rw [lastRunesFrom, List.cons_append]
      generalize decodeLastRune (last :: earlier).reverse = rune at size ⊢
      obtain ⟨r, width⟩ := rune
      simp only [List.length_cons, Nat.sub_zero] at room size ⊢
      rw [lastIndexFrom]
      split
      · exact ⟨_, rfl, by omega⟩
      · obtain ⟨j, found, bound⟩ :=
          lastIndexFrom_stops stops rest earlier (width - 1) (i - width) (by omega) (by omega)
        exact ⟨j, found, by omega⟩
  | _ :: earlier, skip + 1, i, within, room => by
      simp only [List.length_cons] at within room
      rw [lastRunesFrom]
      obtain ⟨j, found, bound⟩ :=
        lastIndexFrom_stops stops rest earlier skip i (by omega) (by omega)
      exact ⟨j, found, by simp; omega⟩

/-- Taking past the byte after `a` keeps `a`, the byte and a start of `b`. -/
theorem take_append_cons {a b : Bytes} {c : UInt8} {i : Nat} (past : a.length < i) :
    (a ++ c :: b).take i = a ++ c :: b.take (i - a.length - 1) := by
  obtain ⟨k, rfl⟩ : ∃ k, i = a.length + k + 1 := ⟨i - a.length - 1, by omega⟩
  simp [List.take_append_eq_append_take, List.take_of_length_le, Nat.add_assoc]

/-- `TrimRightFunc` keeps everything up to an ASCII byte `f` rejects. -/
theorem trimRightFunc_append_ascii {f : Rune → Bool} {c : UInt8} (ascii : c.toNat < runeSelf)
    (kept : f c.toNat = false) (a b : Bytes) :
    ∃ k, trimRightFunc (a ++ c :: b) f = a ++ c :: b.take k := by
  obtain ⟨j, found, after⟩ := lastIndexFrom_stops kept (lastRunes a) b.reverse 0
    (a ++ c :: b).length (Nat.zero_le _) (by simp; omega)
  have index : lastIndexFunc (a ++ c :: b) f false = some j := by
    rw [lastIndexFunc, lastRunes_append_ascii a ascii b]
    exact found
  simp only [List.length_reverse, Nat.sub_zero, List.length_append, List.length_cons] at after
  have cut : ∀ i, j < i → ∃ k, (a ++ c :: b).take i = a ++ c :: b.take k :=
    fun i past => ⟨_, take_append_cons (by omega)⟩
  simp only [trimRightFunc, index]
  split
  · rename_i high
    cases rest : (a ++ c :: b).drop j with
    | nil => simp [rest] at high
    | cons d more =>
        exact cut _ (Nat.lt_of_lt_of_le (Nat.lt_succ_self j)
          (Nat.add_le_add_left (decodeRune_size d more).1 j))
  · exact cut _ (Nat.lt_succ_self j)

/-- Reading back, ASCII white space is taken off no further than a byte that is
not: what is left ends with that byte and a start of what followed it. -/
theorem dropWhile_reverse_keeps {p : UInt8 → Bool} {c : UInt8} (kept : p c = false)
    (a b : Bytes) :
    ∃ k, (a ++ c :: b).reverse.dropWhile p = (a ++ c :: b.take k).reverse := by
  obtain ⟨left, suffix, same⟩ : ∃ left, left <:+ b.reverse ∧
      (a ++ c :: b).reverse.dropWhile p = left ++ c :: a.reverse := by
    rw [List.reverse_append, List.reverse_cons, List.append_assoc, List.singleton_append,
      List.dropWhile_append]
    split
    · exact ⟨[], List.nil_suffix, List.dropWhile_cons_of_neg (by simp [kept])⟩
    · exact ⟨_, List.dropWhile_suffix p, rfl⟩
  have taken := List.prefix_iff_eq_take.mp (List.reverse_prefix.mpr
    (show left <:+ b.reverse from suffix))
  rw [List.reverse_reverse] at taken
  refine ⟨left.length, ?_⟩
  rw [same, ← List.length_reverse, ← taken]
  simp

/-- `TrimSpace` takes ASCII white space off the start of a line that goes on
with printable ASCII bytes, and keeps those bytes and a start of what follows
them. -/
theorem trimSpace_keeps {indent kept : Bytes} (indented : ∀ b ∈ indent, asciiSpace b = true)
    (nonempty : kept ≠ []) (visible : ∀ b ∈ kept, Visible b) (rest : Bytes) :
    ∃ k, trimSpace (indent ++ kept ++ rest) = kept ++ rest.take k := by
  obtain ⟨a, c, rfl⟩ : ∃ a c, kept = a ++ [c] := by
    rcases List.eq_nil_or_concat kept with rfl | ⟨a, c, rfl⟩
    · exact absurd rfl nonempty
    · exact ⟨a, c, List.concat_eq_append a c⟩
  have visibleC := visible c (by simp)
  obtain ⟨h, t, first, visibleH⟩ : ∃ h t, a ++ c :: rest = h :: t ∧ Visible h := by
    cases a <;> exact ⟨_, _, rfl, visible _ (by simp)⟩
  have dropped : (indent ++ (a ++ [c]) ++ rest).dropWhile
      (fun c => decide (c.toNat < runeSelf) && asciiSpace c) = h :: t := by
    rw [List.append_assoc, List.append_assoc, List.singleton_append, first,
      List.dropWhile_append_of_pos fun b mem => by
        have := (asciiSpace_spec (indented b mem)).1
        simp only [runeSelf, indented b mem, Bool.and_true, decide_eq_true_eq]
        omega,
      List.dropWhile_cons_of_neg (by simp [visibleH.not_asciiSpace])]
  obtain ⟨k, back⟩ := @dropWhile_reverse_keeps
    (fun c : UInt8 => decide (c.toNat < runeSelf) && asciiSpace c) c
    (by simp [visibleC.not_asciiSpace]) a rest
  have notHigh : ¬ runeSelf ≤ h.toNat := Nat.not_le.mpr visibleH.ascii
  unfold trimSpace
  simp only [dropped, notHigh, if_false]
  rw [← first, back]
  generalize reversed : (a ++ c :: rest.take k).reverse = ending
  rcases ending with _ | ⟨d, earlier⟩
  · simp at reversed
  · have kept : (d :: earlier).reverse = a ++ c :: rest.take k := by
      rw [← reversed, List.reverse_reverse]
    simp only [kept]
    split
    · obtain ⟨k', trimmed⟩ := trimRightFunc_append_ascii visibleC.ascii visibleC.not_isSpace a
        (rest.take k)
      exact ⟨min k' k, by rw [trimmed, List.take_take]; simp⟩
    · exact ⟨k, by simp⟩

/-- The runes of ASCII bytes are the bytes, one byte each. -/
theorem runes_ascii_append {name : Bytes} (ascii : ∀ b ∈ name, b.toNat < runeSelf)
    (rest : Bytes) :
    runes (name ++ rest) = name.map (fun b => (b.toNat, 1)) ++ runes rest := by
  induction name with
  | nil => rfl
  | cons b name ih =>
      rw [List.cons_append, ← List.nil_append (b :: _),
        runes_append_ascii [] (ascii b (List.mem_cons_self _ _)),
        ih fun b mem => ascii b (List.mem_cons_of_mem _ mem)]
      rfl

theorem foldl_appendRune_ascii {name : Bytes} (ascii : ∀ b ∈ name, b.toNat < runeSelf)
    (flagName : Bytes) :
    (name.map fun b => (b.toNat, 1)).foldl (fun flagName rune => appendRune flagName rune.1)
      flagName = flagName ++ name := by
  induction name generalizing flagName with
  | nil => simp
  | cons b name ih =>
      simp only [List.map_cons, List.foldl_cons]
      rw [appendRune_ascii _ (ascii b (List.mem_cons_self _ _)),
        ih (fun b mem => ascii b (List.mem_cons_of_mem _ mem)), List.append_assoc,
        List.singleton_append]

/-- `Sscanf` with `--%s` reads the printable ASCII name after `--`, up to white
space or the end of the line. -/
theorem scanFlagName_dashes {name tail : Bytes} (nonempty : name ≠ [])
    (visible : ∀ b ∈ name, Visible b) (separated : ∀ c ∈ tail.head?, asciiSpace c = true) :
    scanFlagName (dashes ++ name ++ tail) = some name := by
  obtain ⟨h, t, rfl⟩ := List.exists_cons_of_ne_nil nonempty
  have ascii : ∀ b ∈ h :: t, b.toNat < runeSelf := fun b mem => (visible b mem).ascii
  have visibleH := visible h (List.mem_cons_self _ _)
  have ends : (runes tail).takeWhile (fun rune => !isSpace rune.1) = [] := by
    cases tail with
    | nil => rfl
    | cons s more =>
        have space := asciiSpace_spec (separated s rfl)
        rw [← List.nil_append (s :: more),
          runes_append_ascii [] (show s.toNat < runeSelf by simp only [runeSelf]; omega) more]
        exact List.takeWhile_cons_of_neg (by simp [space.2])
  have prefixed : dashes.isPrefixOf (dashes ++ (h :: t) ++ tail) = true := by
    rw [List.isPrefixOf_iff_prefix, List.append_assoc]
    exact List.prefix_append _ _
  rw [scanFlagName, if_pos prefixed, List.append_assoc,
    List.drop_left' (show dashes.length = 2 from rfl), runes_ascii_append ascii, List.map_cons, List.cons_append,
    List.dropWhile_cons_of_neg (by simp [visibleH.not_isSpace])]
  have notNewline : h.toNat ≠ 10 := Nat.ne_of_gt (by have := visibleH.1; omega)
  simp only [if_neg notNewline]
  rw [← List.cons_append, ← List.map_cons (fun b : UInt8 => (b.toNat, 1)) h t,
    List.takeWhile_append_of_pos (by simpa using fun b mem => (visible b mem).not_isSpace), ends,
    List.append_nil, foldl_appendRune_ascii ascii, List.nil_append]

/-- A line that starts with a shorthand `-x` does not match `--`. -/
theorem scanFlagName_shorthand {shorthand : UInt8} (notDash : shorthand ≠ ascii '-')
    (rest : Bytes) : scanFlagName (ascii '-' :: shorthand :: rest) = none := by
  have unmatched : dashes.isPrefixOf (ascii '-' :: shorthand :: rest) = false := by
    simp [show dashes = [ascii '-', ascii '-'] from rfl, List.isPrefixOf, Ne.symm notDash]
  simp [scanFlagName, unmatched]

/-- The usage shows the line of a flag without a shorthand exactly when the flag
is basic, and the line of a flag with a shorthand whether or not it is. -/
theorem usageLines_flag_lines {basicFlags : List Bytes} (distinct : basicFlags.Nodup)
    {indent rest : Bytes} (indented : ∀ b ∈ indent, asciiSpace b = true) :
    (∀ name : Bytes, name ≠ [] → (∀ b ∈ name, Visible b) →
      (∀ c ∈ rest.head?, asciiSpace c = true) →
        usageLines basicFlags [indent ++ dashes ++ name ++ rest] =
          if name ∈ basicFlags then [indent ++ dashes ++ name ++ rest] else []) ∧
    (∀ shorthand : UInt8, Visible shorthand → shorthand ≠ ascii '-' →
      usageLines basicFlags [indent ++ ascii '-' :: shorthand :: rest] =
        [indent ++ ascii '-' :: shorthand :: rest]) := by
  refine ⟨fun name nonempty visible separated => ?_, fun shorthand visible notDash => ?_⟩
  · have dashesVisible : ∀ b ∈ dashes, Visible b := by decide
    obtain ⟨k, trimmed⟩ := trimSpace_keeps indented
      (show dashes ++ name ≠ [] by simp [nonempty])
      (fun b mem => (List.mem_append.mp mem).elim (dashesVisible b) (visible b)) rest
    have scanned : scanFlagName (trimSpace (indent ++ dashes ++ name ++ rest)) = some name := by
      rw [List.append_assoc indent, trimmed]
      refine scanFlagName_dashes nonempty visible fun c mem => separated c ?_
      rw [List.head?_take] at mem
      split at mem
      · cases mem
      · exact mem
    simp only [usageLines_line, scanned, length_filter_beq distinct]
    split <;> rfl
  · obtain ⟨k, trimmed⟩ := trimSpace_keeps indented
      (show [ascii '-', shorthand] ≠ [] by simp)
      (by simpa using ⟨show Visible (ascii '-') by decide, visible⟩) rest
    have line :
        indent ++ ascii '-' :: shorthand :: rest = indent ++ [ascii '-', shorthand] ++ rest := by
      simp
    rw [usageLines_line, line, trimmed, List.cons_append, List.singleton_append,
      scanFlagName_shorthand notDash]

theorem usageLines_flag_lines_access_help :
    usageLines [.ofAscii "advanced"]
        [.ofAscii "      " ++ dashes ++ .ofAscii "access" ++
          .ofAscii " string   the serialized access"] = [] ∧
    usageLines [.ofAscii "advanced"]
        [Bytes.ofAscii "  " ++ ascii '-' :: ascii 'h' :: Bytes.ofAscii ", --help   help"] =
      [Bytes.ofAscii "  " ++ ascii '-' :: ascii 'h' :: Bytes.ofAscii ", --help   help"] := by
  refine ⟨?_, (@usageLines_flag_lines [.ofAscii "advanced"] (by decide) (.ofAscii "  ")
    (.ofAscii ", --help   help") (by decide)).2 (ascii 'h') (by decide) (by decide)⟩
  rw [(@usageLines_flag_lines [.ofAscii "advanced"] (by decide) (.ofAscii "      ")
    (.ofAscii " string   the serialized access") (by decide)).1 (.ofAscii "access") (by decide)
      (by decide) (by decide)]
  decide

end GatewayMt.Cmd
