import GatewayMt.Path
import GatewayMt.Time.Format

/-!
# The object keys of `RunOnce`

`NewBackup` fixes a key prefix, the configured prefix joined with the node ID,
and `RunOnce` uploads each snapshot to that prefix joined with the day of the
snapshot, `"2006/01/02"`, and its instant in RFC 3339.  For years of four digits
both formatted parts are paths of plain names, so `path.Join` writes a part
fixed by the prefix and then the two parts with a `/` between them; the keys of
two snapshots are then ordered as their whole seconds are.
-/

namespace GatewayMt.Backup

open Time

/-- `path.Join(db.config.Backup.Prefix, db.config.ID.String())`, the `prefix` of
the `Backup` that `NewBackup` returns. -/
def newBackup (configured nodeId : Bytes) : Bytes := Path.join [configured, nodeId]

/-- `path.Join(b.prefix, t.Format("2006/01/02"), t.Format(time.RFC3339))`. -/
def runOnceKey (base : Bytes) (t : Instant) : Bytes :=
  Path.join [base, t.formatDate, t.formatRFC3339]

example : runOnceKey (newBackup (.ofAscii "myprefix") (.ofAscii "mynodeid")) ⟨1649821327, 0, by decide⟩ =
    .ofAscii "myprefix/mynodeid/2022/04/13/2022-04-13T03:42:07Z" := by
  decide

theorem inert_digitsOf (width u : Nat) : ∀ b ∈ digitsOf width u, Path.Inert b := by
  intro b mem
  obtain ⟨d, digit, rfl⟩ := mem_digitsOf mem
  have code := utod_toNat digit
  have slashCode : Path.slash.toNat = 47 := rfl
  have dotCode : Path.dot.toNat = 46 := rfl
  constructor <;> intro same <;> rw [same] at code <;> omega

theorem plain_digitsOf {width u : Nat} (nonempty : 0 < width) : Path.Plain (digitsOf width u) :=
  Path.plain_of_inert (by simpa [← List.length_pos] using nonempty) (inert_digitsOf width u)

theorem plain_formatDate {t : Instant} (fourDigits : FourDigitYear t) : Path.Plain t.formatDate := by
  rw [formatDate_eq fourDigits]
  exact Path.plain_append_slash (plain_digitsOf (by decide))
    (Path.plain_append_slash (plain_digitsOf (by decide)) (plain_digitsOf (by decide)))

theorem plain_formatRFC3339 {t : Instant} (fourDigits : FourDigitYear t) :
    Path.Plain t.formatRFC3339 := by
  rw [formatRFC3339_eq fourDigits]
  have dash : Path.Inert (ascii '-') := by decide
  have colon : Path.Inert (ascii ':') := by decide
  have letters : Path.Inert (ascii 'T') ∧ Path.Inert (ascii 'Z') := by decide
  refine Path.plain_of_inert (by simp [dateField]) ?_
  simp only [dateField, clockField, List.forall_mem_append, List.forall_mem_cons]
  simp [dash, colon, letters]
  exact ⟨⟨inert_digitsOf _ _, inert_digitsOf _ _, inert_digitsOf _ _⟩, inert_digitsOf _ _,
    inert_digitsOf _ _, inert_digitsOf _ _⟩

/-- The key is the part of `path.Join` fixed by the prefix, then the two
formatted parts with a `/` between them. -/
theorem runOnceKey_eq (base : Bytes) {t : Instant} (fourDigits : FourDigitYear t) :
    runOnceKey base t = Path.joinBase base ++ (t.formatDate ++ Path.slash :: t.formatRFC3339) :=
  Path.join_plain base (plain_formatDate fourDigits) (plain_formatRFC3339 fourDigits)

theorem formatted_less {t t' : Instant} (fourDigits : FourDigitYear t)
    (fourDigits' : FourDigitYear t') (earlier : t.unix < t'.unix) :
    (t.formatDate ++ Path.slash :: t.formatRFC3339).Less
      (t'.formatDate ++ Path.slash :: t'.formatRFC3339) := by
  rw [formatDate_eq fourDigits, formatDate_eq fourDigits', formatRFC3339_eq fourDigits,
    formatRFC3339_eq fourDigits']
  obtain ⟨month_lt, day_lt⟩ := t'.date_fields_lt
  have days_le : t.abs / 86400 ≤ t'.abs / 86400 :=
    Int.ediv_le_ediv (by decide) (by unfold Instant.abs; omega)
  rcases days_le.lt_or_eq with laterDay | sameDay
  · exact Bytes.less_of_field (by simp) _ (.inl (dateField_less _ fourDigits.1
      (by have := fourDigits'.2; omega) month_lt day_lt (absDate_before laterDay)))
  · have sameDate : t.date = t'.date := by unfold Instant.date; rw [sameDay]
    obtain ⟨hour_lt, min_lt, sec_lt⟩ := t'.clock_lt
    rw [sameDate]
    refine Bytes.less_of_field rfl _ (.inr ⟨rfl, Bytes.less_of_field rfl _ (.inr ⟨rfl, ?_⟩)⟩)
    exact (clockField_less (by omega) (by omega) (by omega)
      (Instant.clockBefore sameDay earlier)).append_of_length_eq (by simp [clockField]) _ _

theorem runOnceKey_congr (base : Bytes) {t t' : Instant} (same : t.unix = t'.unix) :
    runOnceKey base t = runOnceKey base t' := by
  unfold runOnceKey Instant.formatDate Instant.formatRFC3339 Instant.date Instant.clock Instant.abs
  rw [same]

/-- Under one prefix, the keys of two snapshots with years of four digits are
ordered as the snapshots' whole seconds, and equal exactly when those are. -/
theorem runOnce_keys_ordered (configured nodeId : Bytes) {t t' : Instant}
    (fourDigits : FourDigitYear t) (fourDigits' : FourDigitYear t') :
    ((runOnceKey (newBackup configured nodeId) t).Less (runOnceKey (newBackup configured nodeId) t') ↔
        t.unix < t'.unix) ∧
      (runOnceKey (newBackup configured nodeId) t = runOnceKey (newBackup configured nodeId) t' ↔
        t.unix = t'.unix) := by
  refine Bytes.less_iff_and_eq_iff (fun earlier => ?_) (fun later => ?_)
    (runOnceKey_congr _)
  · rw [runOnceKey_eq _ fourDigits, runOnceKey_eq _ fourDigits', Bytes.less_append_left_iff]
    exact formatted_less fourDigits fourDigits' earlier
  · rw [runOnceKey_eq _ fourDigits, runOnceKey_eq _ fourDigits', Bytes.less_append_left_iff]
    exact formatted_less fourDigits' fourDigits later

theorem runOnce_keys_ordered_one_second_apart :
    FourDigitYear ⟨1649821327, 0, by decide⟩ ∧ FourDigitYear ⟨1649821328, 0, by decide⟩ ∧
      (((runOnceKey (newBackup (.ofAscii "myprefix") (.ofAscii "mynodeid")) ⟨1649821327, 0, by decide⟩).Less
          (runOnceKey (newBackup (.ofAscii "myprefix") (.ofAscii "mynodeid")) ⟨1649821328, 0, by decide⟩) ↔
          (1649821327 : Int) < 1649821328) ∧
        (runOnceKey (newBackup (.ofAscii "myprefix") (.ofAscii "mynodeid")) ⟨1649821327, 0, by decide⟩ =
            runOnceKey (newBackup (.ofAscii "myprefix") (.ofAscii "mynodeid")) ⟨1649821328, 0, by decide⟩ ↔
          (1649821327 : Int) = 1649821328)) :=
  ⟨by decide, by decide, runOnce_keys_ordered _ _ (by decide) (by decide)⟩

theorem newBackup_eq (configured : Bytes) {nodeId : Bytes} (plain : Path.Plain nodeId) :
    newBackup configured nodeId = Path.joinBase configured ++ nodeId :=
  Path.join_pair_plain configured plain

/-- For a node ID of plain names, every key `RunOnce` writes is the prefix
`NewBackup` computed, a `/`, and the formatted parts, whatever the configured
prefix. -/
theorem runOnceKey_newBackup (configured : Bytes) {nodeId : Bytes} (plain : Path.Plain nodeId)
    {t : Instant} (fourDigits : FourDigitYear t) :
    runOnceKey (newBackup configured nodeId) t =
      newBackup configured nodeId ++ Path.slash :: (t.formatDate ++ Path.slash :: t.formatRFC3339) := by
  rw [runOnceKey_eq _ fourDigits, newBackup, Path.joinBase_join_pair_plain configured plain]
  simp

/-- Under any configured prefix, a node whose ID is one plain name writes every
snapshot at its own prefix, a `/`, and the formatted parts, and never under the
prefix of another such node. -/
theorem runOnce_keys_per_node (configured : Bytes) {nodeId nodeId' : Bytes}
    (name : Path.Name nodeId) (name' : Path.Name nodeId') (differ : nodeId ≠ nodeId')
    {t : Instant} (fourDigits : FourDigitYear t) :
    runOnceKey (newBackup configured nodeId) t =
        newBackup configured nodeId ++ Path.slash :: (t.formatDate ++ Path.slash :: t.formatRFC3339) ∧
      ¬ newBackup configured nodeId' ++ [Path.slash] <+: runOnceKey (newBackup configured nodeId) t := by
  rw [runOnceKey_newBackup configured name.plain fourDigits]
  refine ⟨rfl, fun ⟨rest, under⟩ => differ ?_⟩
  rw [newBackup_eq configured name.plain, newBackup_eq configured name'.plain] at under
  simp only [List.append_assoc, List.singleton_append, List.cons_append,
    List.append_cancel_left_eq] at under
  exact (Path.Name.eq_of_append_slash name'.2 name.2 under).symm

theorem runOnce_keys_per_node_two_nodes :
    Path.Name (.ofAscii "mynodeid") ∧ Path.Name (.ofAscii "othernode") ∧
      Bytes.ofAscii "mynodeid" ≠ .ofAscii "othernode" ∧ FourDigitYear ⟨1649821327, 0, by decide⟩ ∧
      (runOnceKey (newBackup (.ofAscii "myprefix") (.ofAscii "mynodeid")) ⟨1649821327, 0, by decide⟩ =
          newBackup (.ofAscii "myprefix") (.ofAscii "mynodeid") ++ Path.slash ::
            (Instant.formatDate ⟨1649821327, 0, by decide⟩ ++
              Path.slash :: Instant.formatRFC3339 ⟨1649821327, 0, by decide⟩) ∧
        ¬ newBackup (.ofAscii "myprefix") (.ofAscii "othernode") ++ [Path.slash] <+:
          runOnceKey (newBackup (.ofAscii "myprefix") (.ofAscii "mynodeid")) ⟨1649821327, 0, by decide⟩) :=
  ⟨by decide, by decide, by decide, by decide,
    runOnce_keys_per_node _ (by decide) (by decide) (by decide) (by decide)⟩

end GatewayMt.Backup
