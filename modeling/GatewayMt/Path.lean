import GatewayMt.Bytes
import Mathlib.Data.List.Basic

/-!
# `path.Clean` and `path.Join`

`Clean` reads a path element by element: it drops empty and `.` elements, lets
`..` take back the element before it, and keeps the `..` that lead a relative
path.  `Join` joins its arguments with `/`, from the first non-empty one on,
and cleans the result.

A path whose elements are all plain names is clean already, and after any
prefix it is kept as it is: joining a prefix with such paths writes a part that
depends on the prefix alone, and then the paths with a `/` between them.
-/

namespace GatewayMt.Path

def slash : UInt8 := ascii '/'

def dot : UInt8 := ascii '.'

/-- The elements of `path`: its bytes cut at every `/`. -/
def elements (path : Bytes) : List Bytes := path.splitOn slash

/-- One element of `Clean`'s loop, with `kept` the elements written so far,
last first.  A `..` backtracks over the last element unless that is one of the
leading `..` that `dotdot` guards; with nothing to backtrack over, it is dropped
from a rooted path and written in a relative one. -/
def cleanStep (rooted : Bool) (kept : List Bytes) (elem : Bytes) : List Bytes :=
  if elem = [] ∨ elem = [dot] then kept
  else if elem = [dot, dot] then
    match kept with
    | last :: earlier => if last = [dot, dot] then elem :: kept else earlier
    | [] => if rooted then [] else [elem]
  else elem :: kept

/-- `path.Clean`: the kept elements with `/` between them, after a `/` for a
rooted path; `.` for an empty result. -/
def clean (path : Bytes) : Bytes :=
  let rooted := path.head? == some slash
  let out := [slash].intercalate ((elements path).foldl (cleanStep rooted) []).reverse
  if rooted then slash :: out else if out = [] then [dot] else out

/-- `path.Join`: the elements from the first non-empty one on, with `/` between
them, cleaned; `""` when every element is empty. -/
def join (elem : List Bytes) : Bytes :=
  if elem.foldl (fun size e => size + e.length) 0 = 0 then []
  else clean ([slash].intercalate (elem.dropWhile List.isEmpty))

/-! ## Plain names -/

/-- An element that `Clean` writes as it is. -/
def PlainElem (elem : Bytes) : Prop := elem ≠ [] ∧ elem ≠ [dot] ∧ elem ≠ [dot, dot]

/-- A relative path of plain names. -/
def Plain (path : Bytes) : Prop := ∀ elem ∈ elements path, PlainElem elem

instance : DecidablePred PlainElem := fun _ => inferInstanceAs (Decidable (_ ∧ _))

instance : DecidablePred Plain := fun _ => inferInstanceAs (Decidable (∀ _ ∈ _, _))

/-- What `Clean` writes of `path` before the elements that follow it. -/
def cleanBase (path : Bytes) : Bytes :=
  let rooted := path.head? == some slash
  let kept := (elements path).foldl (cleanStep rooted) []
  let out := if kept = [] then [] else [slash].intercalate kept.reverse ++ [slash]
  if rooted then slash :: out else out

/-- What `Join` writes of its first argument before plain ones. -/
def joinBase (path : Bytes) : Bytes := if path = [] then [] else cleanBase path

theorem elements_append_slash (path path' : Bytes) :
    elements (path ++ slash :: path') = elements path ++ elements path' := by
  unfold elements List.splitOn
  induction path with
  | nil => simp
  | cons b path ih =>
      obtain ⟨first, rest, split⟩ := List.exists_cons_of_ne_nil (List.splitOnP_ne_nil _ path)
      rw [List.cons_append, List.splitOnP_cons, List.splitOnP_cons, ih, split]
      split <;> rfl

/-- Joining the elements with `/` gives the path back. -/
@[simp]
theorem intercalate_elements (path : Bytes) : [slash].intercalate (elements path) = path :=
  List.intercalate_splitOn path slash

theorem intercalate_cons_of_ne_nil {sep elem : Bytes} {elems : List Bytes} (nonempty : elems ≠ []) :
    sep.intercalate (elem :: elems) = elem ++ sep ++ sep.intercalate elems := by
  obtain ⟨next, rest, rfl⟩ := List.exists_cons_of_ne_nil nonempty
  simp [List.intercalate]

theorem intercalate_append {sep : Bytes} {elems elems' : List Bytes} (nonempty : elems ≠ [])
    (nonempty' : elems' ≠ []) :
    sep.intercalate (elems ++ elems') = sep.intercalate elems ++ sep ++ sep.intercalate elems' := by
  induction elems with
  | nil => exact absurd rfl nonempty
  | cons elem elems ih =>
      rcases eq_or_ne elems [] with last | more
      · rw [last, List.singleton_append, intercalate_cons_of_ne_nil nonempty']
        simp [List.intercalate]
      · rw [List.cons_append, intercalate_cons_of_ne_nil (by simp [more]), ih more,
          intercalate_cons_of_ne_nil more]
        simp

theorem cleanStep_plain (rooted : Bool) (kept : List Bytes) {elem : Bytes} (plain : PlainElem elem) :
    cleanStep rooted kept elem = elem :: kept := by
  obtain ⟨nonempty, notDot, notDotDot⟩ := plain
  simp [cleanStep, nonempty, notDot, notDotDot]

theorem foldl_cleanStep_plain (rooted : Bool) {elems : List Bytes}
    (plain : ∀ elem ∈ elems, PlainElem elem) (kept : List Bytes) :
    elems.foldl (cleanStep rooted) kept = elems.reverse ++ kept := by
  induction elems generalizing kept with
  | nil => rfl
  | cons elem elems ih =>
      rw [List.foldl_cons, cleanStep_plain rooted kept (plain elem (List.mem_cons_self _ _)),
        ih (fun e mem => plain e (List.mem_cons_of_mem _ mem))]
      simp

/-- Cutting at `/` gives at least one element. -/
theorem elements_ne_nil (path : Bytes) : elements path ≠ [] :=
  List.splitOnP_ne_nil _ path

theorem Plain.ne_nil {path : Bytes} (plain : Plain path) : path ≠ [] := by
  rintro rfl
  exact (plain [] (by simp [elements])).1 rfl

theorem Plain.head_ne_slash {path : Bytes} (plain : Plain path) : (path.head? == some slash) = false := by
  cases path with
  | nil => rfl
  | cons b rest =>
      by_cases isSlash : b = slash
      · subst isSlash
        have split : elements (slash :: rest) = [] :: elements rest := by
          simpa using elements_append_slash [] rest
        exact absurd rfl (plain [] (by simp [split])).1
      · simpa using isSlash

theorem plain_append_slash {path path' : Bytes} (plain : Plain path) (plain' : Plain path') :
    Plain (path ++ slash :: path') := by
  intro elem mem
  rw [elements_append_slash] at mem
  rcases List.mem_append.mp mem with first | second
  exacts [plain elem first, plain' elem second]

/-- One plain name, without `/`. -/
def Name (elem : Bytes) : Prop := PlainElem elem ∧ slash ∉ elem

instance : DecidablePred Name := fun _ => inferInstanceAs (Decidable (_ ∧ _))

theorem Name.plain {elem : Bytes} (name : Name elem) : Plain elem := by
  have single : elements elem = [elem] :=
    List.splitOnP_eq_single _ _ fun b mem isSlash => name.2 (eq_of_beq isSlash ▸ mem)
  intro e mem
  rw [single, List.mem_singleton] at mem
  exact mem ▸ name.1

/-- Two paths that start with a name and a `/` start with the same name. -/
theorem Name.eq_of_append_slash {elem elem' rest rest' : Bytes} (noSlash : slash ∉ elem)
    (noSlash' : slash ∉ elem') (same : elem ++ slash :: rest = elem' ++ slash :: rest') :
    elem = elem' := by
  induction elem generalizing elem' with
  | nil =>
      cases elem' with
      | nil => rfl
      | cons b bs =>
          cases (List.cons_eq_cons.mp same).1
          exact absurd (List.mem_cons_self _ _) noSlash'
  | cons b bs ih =>
      cases elem' with
      | nil =>
          cases (List.cons_eq_cons.mp same).1
          exact absurd (List.mem_cons_self _ _) noSlash
      | cons b' bs' =>
          obtain ⟨rfl, rest⟩ := List.cons_eq_cons.mp same
          rw [ih (fun mem => noSlash (List.mem_cons_of_mem _ mem))
            (fun mem => noSlash' (List.mem_cons_of_mem _ mem)) rest]

/-- A byte other than `/` and `.`. -/
def Inert (b : UInt8) : Prop := b ≠ slash ∧ b ≠ dot

instance : DecidablePred Inert := fun _ => inferInstanceAs (Decidable (_ ∧ _))

/-- A non-empty path with neither `/` nor `.` is one plain name. -/
theorem plain_of_inert {path : Bytes} (nonempty : path ≠ []) (inert : ∀ b ∈ path, Inert b) :
    Plain path := by
  have single : elements path = [path] :=
    List.splitOnP_eq_single _ _ fun b mem isSlash => (inert b mem).1 (eq_of_beq isSlash)
  intro elem mem
  rw [single, List.mem_singleton] at mem
  subst mem
  refine ⟨nonempty, ?_, ?_⟩ <;> rintro rfl <;> simp [Inert] at inert

/-- A path of plain names is clean. -/
theorem clean_plain {path : Bytes} (plain : Plain path) : clean path = path := by
  simp only [clean, plain.head_ne_slash, foldl_cleanStep_plain false plain, List.append_nil,
    List.reverse_reverse, Bool.false_eq_true, if_false]
  simp [plain.ne_nil]

/-- After a non-empty path, a path of plain names is written as it is. -/
theorem clean_append_plain {path path' : Bytes} (nonempty : path ≠ []) (plain : Plain path') :
    clean (path ++ slash :: path') = cleanBase path ++ path' := by
  have rooted : ((path ++ slash :: path').head? == some slash) = (path.head? == some slash) := by
    cases path
    exacts [absurd rfl nonempty, rfl]
  have plainElems : ∀ elem ∈ elements path', PlainElem elem := plain
  simp only [clean, cleanBase, rooted, elements_append_slash, List.foldl_append,
    foldl_cleanStep_plain _ plainElems, List.reverse_append, List.reverse_reverse]
  generalize (elements path).foldl _ [] = kept
  rcases eq_or_ne kept [] with none | some
  · simp only [none, List.reverse_nil, List.nil_append, intercalate_elements, if_true,
      if_neg plain.ne_nil]
    split <;> rfl
  · rw [intercalate_append (by simpa using some) (elements_ne_nil _), intercalate_elements]
    split <;> simp [some]

/-- `Join` of any path with two paths of plain names. -/
theorem join_plain (path : Bytes) {path' path'' : Bytes} (plain' : Plain path')
    (plain'' : Plain path'') :
    join [path, path', path''] = joinBase path ++ (path' ++ slash :: path'') := by
  have nonempty' := plain'.ne_nil
  rw [join, if_neg (by simp [nonempty'])]
  by_cases empty : path = []
  · have dropped : [path, path', path''].dropWhile List.isEmpty = [path', path''] := by
      simp [empty, nonempty']
    rw [dropped, show [slash].intercalate [path', path''] = path' ++ slash :: path'' by
      simp [List.intercalate], clean_plain (plain_append_slash plain' plain'')]
    simp [joinBase, empty]
  · have dropped : [path, path', path''].dropWhile List.isEmpty = [path, path', path''] := by
      simp [empty]
    rw [dropped, show [slash].intercalate [path, path', path''] =
      path ++ slash :: (path' ++ slash :: path'') by simp [List.intercalate],
      clean_append_plain empty (plain_append_slash plain' plain'')]
    simp [joinBase, empty]

/-! ## `Clean` keeps what it wrote -/

theorem slash_not_mem_of_mem_elements {path elem : Bytes} (mem : elem ∈ elements path) :
    slash ∉ elem := by
  induction path generalizing elem with
  | nil =>
      obtain rfl : elem = [] := by simpa [elements] using mem
      exact List.not_mem_nil _
  | cons b rest ih =>
      simp only [elements, List.splitOn, List.splitOnP_cons] at mem ih
      split at mem
      · rcases List.mem_cons.mp mem with rfl | later
        exacts [List.not_mem_nil _, ih later]
      · rename_i notSlash
        obtain ⟨first, more, split⟩ :=
          List.exists_cons_of_ne_nil (List.splitOnP_ne_nil (· == slash) rest)
        rw [split, List.modifyHead_cons] at mem
        rw [split] at ih
        rcases List.mem_cons.mp mem with rfl | later
        · rintro (_ | ⟨_, inFirst⟩)
          · simp at notSlash
          · exact ih (List.mem_cons_self _ _) inFirst
        · exact ih (List.mem_cons_of_mem _ later)

/-- The elements `Clean`'s loop has kept, last first: plain names without `/`,
after the run of `..` that leads a relative path. -/
inductive Kept (rooted : Bool) : List Bytes → Prop where
  | nil : Kept rooted []
  | dotdots (run : Nat) : rooted = false → Kept rooted (List.replicate (run + 1) [dot, dot])
  | name {elem : Bytes} {kept : List Bytes} :
      PlainElem elem → slash ∉ elem → Kept rooted kept → Kept rooted (elem :: kept)

theorem Kept.step {rooted : Bool} {kept : List Bytes} (holds : Kept rooted kept) {elem : Bytes}
    (noSlash : slash ∉ elem) : Kept rooted (cleanStep rooted kept elem) := by
  by_cases skipped : elem = [] ∨ elem = [dot]
  · unfold Path.cleanStep
    rwa [if_pos skipped]
  by_cases back : elem = [dot, dot]
  · subst back
    cases holds with
    | nil =>
        cases rooted
        · exact .dotdots 0 rfl
        · exact .nil
    | dotdots run notRooted =>
        simpa [Path.cleanStep, List.replicate_succ] using Kept.dotdots (run + 1) notRooted
    | name plain _ earlier =>
        simpa [Path.cleanStep, plain.2.2] using earlier
  · unfold Path.cleanStep
    rw [if_neg skipped, if_neg back]
    exact .name ⟨fun empty => skipped (.inl empty), fun isDot => skipped (.inr isDot), back⟩
      noSlash holds

theorem Kept.foldl {rooted : Bool} {kept : List Bytes} (holds : Kept rooted kept)
    {elems : List Bytes} (noSlash : ∀ elem ∈ elems, slash ∉ elem) :
    Kept rooted (elems.foldl (Path.cleanStep rooted) kept) := by
  induction elems generalizing kept with
  | nil => exact holds
  | cons elem elems ih =>
      exact ih (holds.step (noSlash elem (List.mem_cons_self _ _)))
        fun e mem => noSlash e (List.mem_cons_of_mem _ mem)

theorem Kept.clean (path : Bytes) :
    Kept (path.head? == some slash)
      ((elements path).foldl (Path.cleanStep (path.head? == some slash)) []) :=
  Kept.nil.foldl fun _ => slash_not_mem_of_mem_elements

theorem foldl_cleanStep_dotdots (run earlier : Nat) :
    (List.replicate run [dot, dot]).foldl (cleanStep false) (List.replicate earlier [dot, dot]) =
      List.replicate (run + earlier) [dot, dot] := by
  induction run generalizing earlier with
  | zero => simp
  | succ run ih =>
      have back : cleanStep false (List.replicate earlier [dot, dot]) [dot, dot] =
          List.replicate (earlier + 1) [dot, dot] := by
        cases earlier <;> simp [cleanStep, List.replicate_succ]
      rw [List.replicate_succ, List.foldl_cons, back, ih]
      congr 1
      omega

/-- Reading back the kept elements, first first, keeps them all. -/
theorem Kept.refold {rooted : Bool} {kept : List Bytes} (holds : Kept rooted kept) :
    kept.reverse.foldl (Path.cleanStep rooted) [] = kept := by
  induction holds with
  | nil => rfl
  | dotdots run notRooted =>
      subst notRooted
      simpa using foldl_cleanStep_dotdots (run + 1) 0
  | name plain _ _ ih =>
      rw [List.reverse_cons, List.foldl_append, ih]
      exact cleanStep_plain _ _ plain

theorem Kept.noSlash {rooted : Bool} {kept : List Bytes} (holds : Kept rooted kept) :
    ∀ elem ∈ kept, slash ∉ elem := by
  induction holds with
  | nil => exact nofun
  | dotdots run _ =>
      intro elem mem
      rw [List.eq_of_mem_replicate mem]
      decide
  | name _ noSlash _ ih => exact List.forall_mem_cons.mpr ⟨noSlash, ih⟩

theorem Kept.ne_nil {rooted : Bool} {kept : List Bytes} (holds : Kept rooted kept) :
    ∀ elem ∈ kept, elem ≠ [] := by
  induction holds with
  | nil => exact nofun
  | dotdots run _ =>
      intro elem mem
      rw [List.eq_of_mem_replicate mem]
      exact List.cons_ne_nil _ _
  | name plain _ _ ih => exact List.forall_mem_cons.mpr ⟨plain.1, ih⟩

theorem Kept.elements_intercalate {rooted : Bool} {kept : List Bytes} (holds : Kept rooted kept)
    (nonempty : kept ≠ []) : elements ([slash].intercalate kept.reverse) = kept.reverse :=
  List.splitOn_intercalate _ slash (fun e mem => holds.noSlash e (List.mem_reverse.mp mem))
    (List.reverse_ne_nil_iff.mpr nonempty)

theorem Kept.intercalate_eq_nil {rooted : Bool} {kept : List Bytes} (holds : Kept rooted kept) :
    [slash].intercalate kept.reverse = [] ↔ kept = [] := by
  refine ⟨fun empty => by_contra fun nonempty => ?_, by rintro rfl; rfl⟩
  have read := holds.elements_intercalate nonempty
  rw [empty] at read
  exact holds.ne_nil [] (List.mem_reverse.mp (read ▸ List.mem_singleton_self _)) rfl

/-- What `cleanBase` writes for the kept elements `kept`. -/
def writtenBase (rooted : Bool) (kept : List Bytes) : Bytes :=
  let out := if kept = [] then [] else [slash].intercalate kept.reverse ++ [slash]
  if rooted then slash :: out else out

theorem cleanBase_eq (path : Bytes) :
    cleanBase path = writtenBase (path.head? == some slash)
      ((elements path).foldl (cleanStep (path.head? == some slash)) []) := rfl

theorem Kept.head_intercalate_append {rooted : Bool} {kept : List Bytes} (holds : Kept rooted kept)
    (nonempty : kept ≠ []) (rest : Bytes) :
    (([slash].intercalate kept.reverse ++ rest).head? == some slash) = false := by
  obtain ⟨first, more, reversed⟩ :=
    List.exists_cons_of_ne_nil (List.reverse_ne_nil_iff.mpr nonempty)
  have mem : first ∈ kept := List.mem_reverse.mp (reversed ▸ List.mem_cons_self _ _)
  obtain ⟨b, bs, rfl⟩ := List.exists_cons_of_ne_nil (holds.ne_nil first mem)
  have notSlash : b ≠ slash := fun same => holds.noSlash _ mem (same ▸ List.mem_cons_self _ _)
  obtain ⟨tail, written⟩ : ∃ tail, [slash].intercalate ((b :: bs) :: more) = b :: tail := by
    cases more
    · exact ⟨bs, by simp [List.intercalate]⟩
    · exact ⟨_, intercalate_cons_of_ne_nil (List.cons_ne_nil _ _)⟩
  simp [reversed, written, notSlash]

theorem head_writtenBase_append {rooted : Bool} {kept : List Bytes} (holds : Kept rooted kept)
    {name : Bytes} (plain : Plain name) :
    ((writtenBase rooted kept ++ name).head? == some slash) = rooted := by
  cases rooted
  · simp only [writtenBase, Bool.false_eq_true, if_false]
    split
    · simpa using plain.head_ne_slash
    · simpa using holds.head_intercalate_append ‹_› ([slash] ++ name)
  · simp [writtenBase]

theorem elements_writtenBase_append {rooted : Bool} {kept : List Bytes} (holds : Kept rooted kept)
    (name : Bytes) :
    elements (writtenBase rooted kept ++ name) =
      (if rooted then [[]] else []) ++ kept.reverse ++ elements name := by
  have body : elements ((if kept = [] then [] else [slash].intercalate kept.reverse ++ [slash]) ++
      name) = kept.reverse ++ elements name := by
    split
    · simp [*]
    · rw [List.append_assoc, List.singleton_append, elements_append_slash,
        holds.elements_intercalate ‹_›]
  cases rooted
  · simpa [writtenBase] using body
  · simp only [writtenBase, if_true, List.cons_append]
    rw [← List.nil_append (slash :: _), elements_append_slash, body]
    rfl

theorem foldl_cleanStep_root (rooted : Bool) :
    ((if rooted then [[]] else []) : List Bytes).foldl (cleanStep rooted) [] = [] := by
  split <;> simp [cleanStep]

theorem foldl_cleanStep_writtenBase {rooted : Bool} {kept : List Bytes} (holds : Kept rooted kept)
    {name : Bytes} (plain : Plain name) :
    ((if rooted then [[]] else []) ++ kept.reverse ++ elements name).foldl (cleanStep rooted) [] =
      (elements name).reverse ++ kept := by
  rw [List.foldl_append, List.foldl_append, foldl_cleanStep_root, holds.refold,
    foldl_cleanStep_plain rooted plain]

theorem writtenBase_append_elements (rooted : Bool) (kept : List Bytes) (name : Bytes) :
    writtenBase rooted ((elements name).reverse ++ kept) = writtenBase rooted kept ++ name ++ [slash] := by
  have nonempty : (elements name).reverse ++ kept ≠ [] := by simp [elements_ne_nil]
  simp only [writtenBase, if_neg nonempty, List.reverse_append, List.reverse_reverse]
  by_cases empty : kept = []
  · cases rooted <;> simp [empty]
  · rw [intercalate_append (List.reverse_ne_nil_iff.mpr empty) (elements_ne_nil _),
      intercalate_elements]
    cases rooted <;> simp [empty]

/-- `Clean` writes again what it wrote for a path, followed by plain names. -/
theorem cleanBase_writtenBase_append {rooted : Bool} {kept : List Bytes} (holds : Kept rooted kept)
    {name : Bytes} (plain : Plain name) :
    cleanBase (writtenBase rooted kept ++ name) = writtenBase rooted kept ++ name ++ [slash] := by
  rw [cleanBase_eq, head_writtenBase_append holds plain, elements_writtenBase_append holds,
    foldl_cleanStep_writtenBase holds plain, writtenBase_append_elements]

theorem joinBase_eq_writtenBase (path : Bytes) :
    ∃ rooted kept, Kept rooted kept ∧ joinBase path = writtenBase rooted kept := by
  by_cases empty : path = []
  · exact ⟨false, [], .nil, by simp [joinBase, empty, writtenBase]⟩
  · exact ⟨_, _, Kept.clean path, by rw [joinBase, if_neg empty, cleanBase_eq]⟩

/-- `Join` of any path with a path of plain names. -/
theorem join_pair_plain (path : Bytes) {path' : Bytes} (plain' : Plain path') :
    join [path, path'] = joinBase path ++ path' := by
  have nonempty' := plain'.ne_nil
  rw [join, if_neg (by simp [nonempty'])]
  by_cases empty : path = []
  · have dropped : [path, path'].dropWhile List.isEmpty = [path'] := by simp [empty, nonempty']
    rw [dropped, show [slash].intercalate [path'] = path' by simp [List.intercalate],
      clean_plain plain']
    simp [joinBase, empty]
  · have dropped : [path, path'].dropWhile List.isEmpty = [path, path'] := by simp [empty]
    rw [dropped, show [slash].intercalate [path, path'] = path ++ slash :: path' by
      simp [List.intercalate], clean_append_plain empty plain']
    simp [joinBase, empty]

/-- What `Join` writes of a path joined with plain names, before more plain
names, is that path and a `/`. -/
theorem joinBase_join_pair_plain (path : Bytes) {path' : Bytes} (plain' : Plain path') :
    joinBase (join [path, path']) = join [path, path'] ++ [slash] := by
  obtain ⟨rooted, kept, holds, base⟩ := joinBase_eq_writtenBase path
  rw [join_pair_plain path plain', joinBase, if_neg (by simp [plain'.ne_nil]), base,
    cleanBase_writtenBase_append holds plain']

/-- What `clean` writes for the kept elements `kept`. -/
def written (rooted : Bool) (kept : List Bytes) : Bytes :=
  let out := [slash].intercalate kept.reverse
  if rooted then slash :: out else if out = [] then [dot] else out

theorem clean_eq_written (path : Bytes) :
    clean path = written (path.head? == some slash)
      ((elements path).foldl (cleanStep (path.head? == some slash)) []) := rfl

/-- `Clean` reads back what it wrote for the kept elements. -/
theorem Kept.clean_written {rooted : Bool} {kept : List Bytes} (holds : Kept rooted kept) :
    Path.clean (written rooted kept) = written rooted kept := by
  by_cases empty : kept = []
  · subst empty
    cases rooted <;> rfl
  have outNonempty := mt holds.intercalate_eq_nil.mp empty
  have head : ((written rooted kept).head? == some slash) = rooted := by
    cases rooted
    · simpa [written, outNonempty] using holds.head_intercalate_append empty []
    · rfl
  have elems : elements (written rooted kept) = (if rooted then [[]] else []) ++ kept.reverse := by
    cases rooted
    · simpa [written, outNonempty] using holds.elements_intercalate empty
    · simp only [written, if_true]
      rw [← List.nil_append (slash :: _), elements_append_slash, holds.elements_intercalate empty]
      rfl
  rw [clean_eq_written (written rooted kept), head, elems, List.foldl_append, foldl_cleanStep_root,
    holds.refold]

/-- `path.Clean` is idempotent: what it writes is clean. -/
theorem clean_clean (path : Bytes) : clean (clean path) = clean path := by
  rw [clean_eq_written path]
  exact (Kept.clean path).clean_written

end GatewayMt.Path
