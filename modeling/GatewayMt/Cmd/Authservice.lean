import GatewayMt.Cmd.Run

/-!
# The commands of the auth service

`cmdMigrationRun` opens the key/value store, starts `kv.Run(migrationCtx)` in
an `errgroup.Group`, and migrates the store next to it.  After a successful
migration it cancels `migrationCtx` and waits for the group, so the deferred
`kv.Close()` comes after `kv.Run` has returned.  When the store has no
`MigrateToLatest` or the migration fails, it returns at once: the deferred
`kv.Close()` runs before the deferred `cancel()`, while `kv.Run` may still be
running, and nothing collects what `kv.Run` returns.

`cmdRegister` prints the credentials it registered, with `--format-env` as
`NAME=value` lines for scripts; a script reads them back exactly when none of
them holds a line feed.
-/

namespace GatewayMt.Authservice

open Cmd

/-- What `auth.OpenKV` returned: the dynamic type of the store, and whether it
has a `MigrateToLatest` method. -/
structure Backend where
  typeName : String
  migrates : Bool
  deriving DecidableEq, Repr

/-- The goroutine that returns `errs2.IgnoreCanceled(kv.Run(migrationCtx))`:
not started, running, or exited once `kv.Run` returned `result`. -/
inductive Runner where
  | notStarted
  | running
  | exited (result : Option Error)
  deriving Repr

/-- Where `cmdMigrationRun` stands: blocked in
`migrator.MigrateToLatest(migrationCtx)`; blocked in `g.Wait()` after
`cancel()`; in the deferred `kv.Close()` with `err` the error returned so far;
or returned `err` after the deferred `cancel()`. -/
inductive Phase where
  | migrating
  | waiting
  | closing (err : Option Error)
  | returned (err : Option Error)
  deriving Repr

/-- The command and its goroutine: `cancelled` once `cmdMigrationRun` has
called `cancel()`; `groupErr` is `g.err`; `migration` and `closed` are what
`MigrateToLatest` and the deferred `kv.Close()` returned, once they have. -/
structure State where
  cancelled : Bool
  runner : Runner
  groupErr : Option Error
  phase : Phase
  migration : Option (Option Error)
  closed : Option (Option Error)
  deriving Repr

/-- `errs.New("database backend %T does not support migrations", kv)`. -/
def notSupported (kv : Backend) : Error :=
  .new "" ("database backend " ++ kv.typeName ++ " does not support migrations")

/-- `cmdMigrationRun` up to its first block, `auth.OpenKV` having returned
`opened`. -/
def State.init : Except Error Backend → State
  | .error err => ⟨true, .notStarted, none, .returned (some (.wrapped "" err)), none, none⟩
  | .ok kv =>
      ⟨false, .running, none,
        if kv.migrates then .migrating else .closing (some (notSupported kv)), none, none⟩

/-- The moves of the parties: `MigrateToLatest` returns `err`;
`kv.Run(migrationCtx)` returns `err`; `g.Wait()` returns; the deferred
`kv.Close()` returns `err`. -/
inductive Move where
  | migrateReturns (err : Option Error)
  | runReturns (err : Option Error)
  | groupWait
  | closeReturns (err : Option Error)
  deriving Repr

/-- One move; `none` when it is blocked. -/
def State.step (s : State) : Move → Option State
  | .migrateReturns err =>
      match s.phase, err with
      | .migrating, none =>
          some { s with cancelled := true, phase := .waiting, migration := some none }
      | .migrating, some cause =>
          some { s with phase := .closing (some (.wrapped "" cause)), migration := some err }
      | _, _ => none
  | .runReturns err =>
      match s.runner with
      | .running =>
          some { s with runner := .exited err, groupErr := s.groupErr.or (ignoreCanceled err) }
      | _ => none
  | .groupWait =>
      match s.phase, s.runner with
      | .waiting, .exited _ => some { s with phase := .closing s.groupErr }
      | _, _ => none
  | .closeReturns err =>
      match s.phase with
      | .closing pending =>
          some { s with
            phase := .returned (combine [pending, err])
            cancelled := true
            closed := some err }
      | _ => none

inductive State.Reachable (opened : Except Error Backend) : State → Prop where
  | init : State.Reachable opened (.init opened)
  | step {s s' : State} (move : Move) :
      s.Reachable opened → s.step move = some s' → s'.Reachable opened

/-- `g.err` once the goroutine stands at `runner`. -/
def Runner.groupErr : Runner → Option Error
  | .exited result => ignoreCanceled result
  | _ => none

/-- `MigrateToLatest` returned nil. -/
def State.Migrated (s : State) : Prop := s.migration = some none

/-- What `cmdMigrationRun` returns before its deferred calls when the store has
no `MigrateToLatest` or the migration failed. -/
def failure (kv : Backend) : Option (Option Error) → Error
  | some (some err) => .wrapped "" err
  | _ => notSupported kv

structure State.Invariant (opened : Except Error Backend) (s : State) : Prop where
  group : s.groupErr = s.runner.groupErr
  migrating : s.phase = .migrating → s.migration = none ∧ s.cancelled = false
  waiting : s.phase = .waiting → s.Migrated ∧ s.cancelled = true
  closingMigrated : ∀ err, s.phase = .closing err → s.Migrated →
    s.cancelled = true ∧ ∃ result, s.runner = .exited result ∧ err = ignoreCanceled result
  closingFailed : ∀ err kv, opened = .ok kv → s.phase = .closing err → ¬ s.Migrated →
    s.cancelled = false ∧ err = some (failure kv s.migration)
  returnedMigrated : ∀ err, s.phase = .returned err → s.Migrated →
    ∃ result closeErr, s.runner = .exited result ∧ s.closed = some closeErr ∧
      err = combine [ignoreCanceled result, closeErr]
  returnedFailed : ∀ err kv, opened = .ok kv → s.phase = .returned err → ¬ s.Migrated →
    ∃ closeErr, s.closed = some closeErr ∧ err = combine [some (failure kv s.migration), closeErr]

theorem State.Invariant.init (opened : Except Error Backend) :
    (State.init opened).Invariant opened := by
  cases opened with
  | error err =>
      exact ⟨rfl, nofun, nofun, nofun, nofun, fun _ _ => nofun, fun _ _ => nofun⟩
  | ok kv =>
      cases migrates : kv.migrates
      · refine ⟨rfl, ?_, ?_, ?_, ?_, ?_, ?_⟩ <;> simp [State.init, migrates, State.Migrated, failure]
      · refine ⟨rfl, ?_, ?_, ?_, ?_, ?_, ?_⟩ <;> simp [State.init, migrates]

theorem State.Invariant.step {opened : Except Error Backend} {s s' : State}
    (holds : s.Invariant opened) {move : Move} (moved : s.step move = some s') :
    s'.Invariant opened := by
  cases move with
  | migrateReturns err =>
      cases phase : s.phase <;> cases err <;> simp only [State.step, phase] at moved <;>
        cases moved
      · obtain ⟨_, notCancelled⟩ := holds.migrating phase
        exact ⟨holds.group, nofun, fun _ => ⟨rfl, rfl⟩, nofun, nofun, nofun, nofun⟩
      · obtain ⟨_, notCancelled⟩ := holds.migrating phase
        exact ⟨holds.group, nofun, nofun, fun _ _ => nofun,
          fun _ _ _ closing _ => by cases closing; exact ⟨notCancelled, rfl⟩, nofun, nofun⟩
  | runReturns err =>
      cases runner : s.runner <;> simp only [State.step, runner] at moved <;> cases moved
      have stillRunning : ∀ result, s.runner ≠ .exited result := by simp [runner]
      refine ⟨by rw [holds.group, runner]; rfl, holds.migrating, holds.waiting, ?_,
        holds.closingFailed, ?_, holds.returnedFailed⟩
      · intro pending closing migrated
        obtain ⟨_, result, exited⟩ := holds.closingMigrated pending closing migrated
        exact absurd exited.1 (stillRunning result)
      · intro returned' returned migrated
        obtain ⟨result, _, exited, _⟩ := holds.returnedMigrated returned' returned migrated
        exact absurd exited (stillRunning result)
  | groupWait =>
      cases phase : s.phase <;> cases runner : s.runner <;>
        simp only [State.step, phase, runner] at moved <;> cases moved
      rename_i result
      obtain ⟨migrated, cancelled⟩ := holds.waiting phase
      have group : s.groupErr = ignoreCanceled result := by rw [holds.group, runner]; rfl
      refine ⟨group, nofun, nofun, ?_, ?_, nofun, nofun⟩
      · rintro _ ⟨⟩ -
        exact ⟨cancelled, result, rfl, group⟩
      · exact fun _ _ _ _ notMigrated => absurd migrated notMigrated
  | closeReturns err =>
      cases phase : s.phase <;> simp only [State.step, phase] at moved <;> cases moved
      rename_i pending
      refine ⟨holds.group, nofun, nofun, nofun, nofun, ?_, ?_⟩
      · rintro _ ⟨⟩ migrated
        obtain ⟨-, result, exited, rfl⟩ := holds.closingMigrated pending phase migrated
        exact ⟨result, err, exited, rfl, rfl⟩
      · rintro _ kv opened ⟨⟩ notMigrated
        obtain ⟨-, rfl⟩ := holds.closingFailed pending kv opened phase notMigrated
        exact ⟨err, rfl, rfl⟩

theorem State.Reachable.invariant {opened : Except Error Backend} {s : State}
    (reachable : s.Reachable opened) : s.Invariant opened := by
  induction reachable with
  | init => exact .init opened
  | step _ _ moved holds => exact holds.step moved

/-- After a successful migration, whatever `kv.Run` and `kv.Close` return and
however the goroutine interleaves, `kv.Close()` is called only once
`cmdMigrationRun` has cancelled `migrationCtx` and `kv.Run` has returned, and
the command returns `errs.Combine` of what `kv.Run` returned, cancellations
ignored, and what `kv.Close` returned. -/
theorem migration_closes_after_run {opened : Except Error Backend} {s : State}
    (reachable : s.Reachable opened) (migrated : s.Migrated) :
    (∀ err, s.phase = .closing err →
      s.cancelled = true ∧ ∃ result, s.runner = .exited result ∧ err = ignoreCanceled result) ∧
    ∀ err, s.phase = .returned err → ∃ result closeErr, s.runner = .exited result ∧
      s.closed = some closeErr ∧ err = combine [ignoreCanceled result, closeErr] :=
  ⟨fun err closing => reachable.invariant.closingMigrated err closing migrated,
    fun err returned => reachable.invariant.returnedMigrated err returned migrated⟩

/-- A migration of a store whose `kv.Run` returns `context.Canceled` once
`migrationCtx` is cancelled, and whose `kv.Close` succeeds. -/
theorem migration_closes_after_run_clean :
    ∃ s, State.Reachable (.ok ⟨"*sqlauth.KV", true⟩) s ∧ s.Migrated ∧ s.phase = .returned none ∧
      ((∀ err, s.phase = .closing err →
        s.cancelled = true ∧ ∃ result, s.runner = .exited result ∧ err = ignoreCanceled result) ∧
      ∀ err, s.phase = .returned err → ∃ result closeErr, s.runner = .exited result ∧
        s.closed = some closeErr ∧ err = combine [ignoreCanceled result, closeErr]) := by
  have reached : State.Reachable (.ok ⟨"*sqlauth.KV", true⟩)
      ⟨true, .exited (some .canceled), none, .returned none, some none, some none⟩ :=
    ((((State.Reachable.init : State.Reachable (.ok ⟨"*sqlauth.KV", true⟩) _).step
      (.migrateReturns none) rfl).step (.runReturns (some .canceled)) rfl).step .groupWait
      rfl).step (.closeReturns none) rfl
  exact ⟨_, reached, rfl, rfl, migration_closes_after_run reached rfl⟩

/-- When the store has no `MigrateToLatest` or the migration fails, whatever
`kv.Run` does, `kv.Close()` is called before `cmdMigrationRun` cancels
`migrationCtx` and the command returns `errs.Combine` of its own error and what
`kv.Close` returned; and `kv.Close()` can be called while `kv.Run` is still
running. -/
theorem failed_migration_closes_while_running (kv : Backend) :
    (∀ s : State, s.Reachable (.ok kv) → ¬ s.Migrated →
      (∀ err, s.phase = .closing err →
        s.cancelled = false ∧ err = some (failure kv s.migration)) ∧
      ∀ err, s.phase = .returned err → ∃ closeErr, s.closed = some closeErr ∧
        err = combine [some (failure kv s.migration), closeErr]) ∧
    ∃ s : State, s.Reachable (.ok kv) ∧ ¬ s.Migrated ∧ s.runner = .running ∧
      s.cancelled = false ∧ s.phase = .closing (some (failure kv s.migration)) := by
  refine ⟨fun s reachable failed => ⟨fun err closing =>
    reachable.invariant.closingFailed err kv rfl closing failed, fun err returned =>
    reachable.invariant.returnedFailed err kv rfl returned failed⟩, ?_⟩
  cases migrates : kv.migrates
  · exact ⟨_, .init, nofun, rfl, rfl, by simp [State.init, migrates, failure]⟩
  · have moved : (State.init (.ok kv)).step (.migrateReturns (some .canceled)) =
        some ⟨false, .running, none, .closing (some (.wrapped "" .canceled)), some (some .canceled),
          none⟩ := by
      simp [State.init, State.step, migrates]
    exact ⟨_, State.Reachable.init.step _ moved, nofun, rfl, rfl, rfl⟩

/-! ## `cmdRegister` -/

/-- The credentials `register.Access` returns. -/
structure Credentials where
  accessKeyId : Bytes
  secretKey : Bytes
  endpoint : Bytes
  deriving DecidableEq, Repr

def lineFeed : UInt8 := 10

/-- What `cmdRegister` prints with `--format-env`:
`fmt.Printf("AWS_ACCESS_KEY_ID=%s\nAWS_SECRET_ACCESS_KEY=%s\nAWS_ENDPOINT=%s\n", ...)`. -/
def formatEnv (res : Credentials) : Bytes :=
  Bytes.ofAscii "AWS_ACCESS_KEY_ID=" ++ res.accessKeyId ++ lineFeed ::
    (Bytes.ofAscii "AWS_SECRET_ACCESS_KEY=" ++ res.secretKey ++ lineFeed ::
      (Bytes.ofAscii "AWS_ENDPOINT=" ++ res.endpoint ++ [lineFeed]))

/-- How a script reads `NAME=value` lines: the text cut at line feeds, empty
lines skipped, and each line cut at its first `=`. -/
def readAssignments (out : Bytes) : List (Bytes × Bytes) :=
  ((out.splitOn lineFeed).filter fun line => !line.isEmpty).map fun line =>
    (line.takeWhile (· != ascii '='), (line.dropWhile (· != ascii '=')).drop 1)

theorem readAssignments_nil : readAssignments [] = [] := rfl

theorem readAssignments_line {line : Bytes} (nonempty : line ≠ []) (noLineFeed : lineFeed ∉ line)
    (rest : Bytes) :
    readAssignments (line ++ lineFeed :: rest) =
      (line.takeWhile (· != ascii '='), (line.dropWhile (· != ascii '=')).drop 1) ::
        readAssignments rest := by
  have first : (line ++ lineFeed :: rest).splitOn lineFeed = line :: rest.splitOn lineFeed :=
    List.splitOnP_first (· == lineFeed) line (fun b mem same => noLineFeed (eq_of_beq same ▸ mem))
      lineFeed (by simp) rest
  simp [readAssignments, first, List.filter_cons, nonempty]

theorem cut_assignment {name : Bytes} (noEquals : ∀ b ∈ name, b ≠ ascii '=') (value : Bytes) :
    ((name ++ ascii '=' :: value).takeWhile (· != ascii '='),
      ((name ++ ascii '=' :: value).dropWhile (· != ascii '=')).drop 1) = (name, value) := by
  induction name with
  | nil => simp
  | cons b name ih =>
      have other : b ≠ ascii '=' := noEquals b (List.mem_cons_self _ _)
      have later := ih fun b' mem => noEquals b' (List.mem_cons_of_mem _ mem)
      simp only [Prod.mk.injEq] at later
      simp [other, later]

theorem append_lineFeed_takeWhile (value rest : Bytes) :
    ∃ rest', value ++ lineFeed :: rest = value.takeWhile (· != lineFeed) ++ lineFeed :: rest' ∧
      (lineFeed ∉ value → rest' = rest) := by
  induction value with
  | nil => exact ⟨rest, rfl, fun _ => rfl⟩
  | cons b value ih =>
      by_cases same : b = lineFeed
      · subst same
        exact ⟨value ++ lineFeed :: rest, by simp, fun absent => absurd (List.mem_cons_self _ _) absent⟩
      · obtain ⟨rest', split, kept⟩ := ih
        exact ⟨rest', by simp [same, split], fun absent => kept (mt (List.mem_cons_of_mem _) absent)⟩

/-- One `NAME=value` line: the value is read up to its first line feed, and the
rest follows after it. -/
theorem readAssignments_assignment (name : Bytes) (plain : ∀ b ∈ name, b ≠ ascii '=' ∧ b ≠ lineFeed) (value rest : Bytes) :
    ∃ rest', readAssignments (name ++ ascii '=' :: (value ++ lineFeed :: rest)) =
        (name, value.takeWhile (· != lineFeed)) :: readAssignments rest' ∧
      (lineFeed ∉ value → rest' = rest) := by
  obtain ⟨rest', split, kept⟩ := append_lineFeed_takeWhile value rest
  refine ⟨rest', ?_, kept⟩
  have noLineFeed : lineFeed ∉ name ++ ascii '=' :: value.takeWhile (· != lineFeed) := by
    simp only [List.mem_append, List.mem_cons, not_or]
    refine ⟨fun mem => (plain _ mem).2 rfl, by decide, fun mem => ?_⟩
    simpa using List.mem_takeWhile_imp mem
  rw [split, show name ++ ascii '=' :: (value.takeWhile (· != lineFeed) ++ lineFeed :: rest') =
      (name ++ ascii '=' :: value.takeWhile (· != lineFeed)) ++ lineFeed :: rest' by simp,
    readAssignments_line (by simp) noLineFeed, cut_assignment fun b mem => (plain b mem).1]

theorem takeWhile_lineFeed_eq_iff (value : Bytes) :
    value.takeWhile (· != lineFeed) = value ↔ lineFeed ∉ value := by
  rw [List.takeWhile_eq_self_iff]
  exact ⟨fun kept mem => by simpa using kept _ mem, fun absent b mem =>
    bne_iff_ne.mpr fun same => absent (same ▸ mem)⟩

theorem readAssignments_value (name : Bytes) (plain : ∀ b ∈ name, b ≠ ascii '=' ∧ b ≠ lineFeed)
    {value : Bytes} (noLineFeed : lineFeed ∉ value) (rest : Bytes) :
    readAssignments (name ++ ascii '=' :: (value ++ lineFeed :: rest)) =
      (name, value) :: readAssignments rest := by
  obtain ⟨rest', read, kept⟩ := readAssignments_assignment name plain value rest
  rw [read, kept noLineFeed, (takeWhile_lineFeed_eq_iff value).mpr noLineFeed]

/-- The first value a script reads is the whole value exactly when it holds no
line feed. -/
theorem not_mem_of_read {name value rest : Bytes} {assignments : List (Bytes × Bytes)}
    (plain : ∀ b ∈ name, b ≠ ascii '=' ∧ b ≠ lineFeed)
    (read : readAssignments (name ++ ascii '=' :: (value ++ lineFeed :: rest)) =
      (name, value) :: assignments) : lineFeed ∉ value := by
  obtain ⟨rest', first, -⟩ := readAssignments_assignment name plain value rest
  rw [first, List.cons.injEq, Prod.mk.injEq] at read
  exact (takeWhile_lineFeed_eq_iff value).mp read.1.2

theorem formatEnv_eq (res : Credentials) :
    formatEnv res = Bytes.ofAscii "AWS_ACCESS_KEY_ID" ++ ascii '=' :: (res.accessKeyId ++ lineFeed ::
      (Bytes.ofAscii "AWS_SECRET_ACCESS_KEY" ++ ascii '=' :: (res.secretKey ++ lineFeed ::
        (Bytes.ofAscii "AWS_ENDPOINT" ++ ascii '=' :: (res.endpoint ++ lineFeed :: []))))) := by
  simp only [formatEnv, List.append_assoc]
  rfl

/-- A script that reads the `--format-env` output as `NAME=value` lines gets the
three credentials back, in order, exactly when none of them holds a line feed. -/
theorem formatEnv_reads_back (res : Credentials) :
    readAssignments (formatEnv res) =
        [(.ofAscii "AWS_ACCESS_KEY_ID", res.accessKeyId),
          (.ofAscii "AWS_SECRET_ACCESS_KEY", res.secretKey), (.ofAscii "AWS_ENDPOINT", res.endpoint)] ↔
      lineFeed ∉ res.accessKeyId ∧ lineFeed ∉ res.secretKey ∧ lineFeed ∉ res.endpoint := by
  have idName : ∀ b ∈ Bytes.ofAscii "AWS_ACCESS_KEY_ID", b ≠ ascii '=' ∧ b ≠ lineFeed := by decide
  have secretName : ∀ b ∈ Bytes.ofAscii "AWS_SECRET_ACCESS_KEY", b ≠ ascii '=' ∧ b ≠ lineFeed := by
    decide
  have endpointName : ∀ b ∈ Bytes.ofAscii "AWS_ENDPOINT", b ≠ ascii '=' ∧ b ≠ lineFeed := by decide
  rw [formatEnv_eq]
  constructor
  · intro read
    have noId := not_mem_of_read idName read
    rw [readAssignments_value _ idName noId, List.cons.injEq] at read
    have noSecret := not_mem_of_read secretName read.2
    rw [readAssignments_value _ secretName noSecret, List.cons.injEq] at read
    exact ⟨noId, noSecret, not_mem_of_read endpointName read.2.2⟩
  · rintro ⟨noId, noSecret, noEndpoint⟩
    rw [readAssignments_value _ idName noId, readAssignments_value _ secretName noSecret,
      readAssignments_value _ endpointName noEndpoint, readAssignments_nil]

/-- An endpoint holding a line feed adds an assignment of its own. -/
example : readAssignments (formatEnv ⟨.ofAscii "id", .ofAscii "key", .ofAscii "e\nAWS_ACCESS_KEY_ID=x"⟩) =
    [(.ofAscii "AWS_ACCESS_KEY_ID", .ofAscii "id"), (.ofAscii "AWS_SECRET_ACCESS_KEY", .ofAscii "key"),
      (.ofAscii "AWS_ENDPOINT", .ofAscii "e"), (.ofAscii "AWS_ACCESS_KEY_ID", .ofAscii "x")] := by
  decide

end GatewayMt.Authservice
