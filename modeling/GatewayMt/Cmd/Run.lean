import GatewayMt.Bytes
import Mathlib.Logic.Function.Basic
import Mathlib.Data.List.Nodup

/-!
# `cmdRun` of the gateway

`cmdRun` exports Minio's settings to the process environment, gathering every
failure with `errs.Combine`, and then runs the peer in an `errgroup.Group` of
two goroutines: one returns `peer.Run(ctx)`, the other waits for `ctx.Done()`
and returns `peer.Close()`, both with cancellations ignored.  `g.Wait()`
returns once both goroutines have returned, with the first non-nil error.
The link sharing service's `cmdRun` runs its peer in the same way.  Only a
signal cancels `ctx`, so `cmdRun` returns only after one, even when
`peer.Run` failed long before.
-/

namespace GatewayMt.Cmd

/-! ## Errors -/

/-- The errors that reach the commands: `canceled` is one that `errs2.IsCanceled`
recognizes, such as `context.Canceled`; `external` any other error of a
dependency; `new cls message` is `cls.New(message)` and `wrapped cls cause` is
`cls.Wrap(cause)` of a non-nil cause, `errs.New` and `errs.Wrap` having the
empty class; `combined` is the group `errs.Combine` makes of two or more
errors. -/
inductive Error where
  | canceled
  | external (text : String)
  | new (cls message : String)
  | wrapped (cls : String) (cause : Error)
  | combined (errors : List Error)
  deriving Repr

mutual
/-- `errs2.IsCanceled`: `errs.IsFunc` looks through wrapping and into the errors
of a group. -/
def Error.isCanceled : Error → Bool
  | .canceled => true
  | .wrapped _ cause => cause.isCanceled
  | .combined errors => Error.anyCanceled errors
  | _ => false

/-- Some error of a group is a cancellation. -/
def Error.anyCanceled : List Error → Bool
  | [] => false
  | err :: errors => err.isCanceled || Error.anyCanceled errors
end

/-- `errs2.IgnoreCanceled`. -/
def ignoreCanceled : Option Error → Option Error
  | some err => if err.isCanceled then none else some err
  | none => none

/-- `errs.Combine(errs...)`: of the non-nil errors, nil for none, the error
itself for one, and their combination for more. -/
def combine (errors : List (Option Error)) : Option Error :=
  match errors.filterMap id with
  | [] => none
  | [err] => some err
  | errs => some (.combined errs)

@[simp] theorem combine_nil_right (err : Option Error) : combine [err, none] = err := by
  cases err <;> rfl

@[simp] theorem combine_none_left (err : Option Error) : combine [none, err] = err := by
  cases err <;> rfl

/-! ## Minio's settings -/

/-- The process environment. -/
abbrev Environ := Bytes → Option Bytes

/-- What `syscall.Setenv` refuses on Unix: an empty key, a key holding `=` or
NUL, and a value holding NUL. -/
def Refused (key value : Bytes) : Prop := key = [] ∨ 61 ∈ key ∨ 0 ∈ key ∨ 0 ∈ value

instance (key value : Bytes) : Decidable (Refused key value) :=
  inferInstanceAs (Decidable (_ ∨ _))

/-- `os.Setenv(key, value)`: a refused setting changes nothing. -/
def setenv (env : Environ) (key value : Bytes) : Except Error Environ :=
  if Refused key value then .error (.external "setenv: invalid argument")
  else .ok (Function.update env key (some value))

/-- `Error = errs.Class("gateway setup")`. -/
def gatewaySetup : String := "gateway setup"

/-- The closure `validate(value, configName)`, `err` being the error so far. -/
def validate (err : Option Error) (value : Bytes) (configName : String) : Option Error :=
  if value = [] then
    combine [err, some (.new gatewaySetup ("required parameter --" ++ configName ++ " not set"))]
  else err

/-- The closure `set(value, envName)`. -/
def set (env : Environ) (err : Option Error) (value envName : Bytes) : Environ × Option Error :=
  match setenv env envName value with
  | .ok updated => (updated, combine [err, none])
  | .error cause => (env, combine [err, some (.wrapped gatewaySetup cause)])

/-- `cmdRun` from `validate(runCfg.DomainName, "domain-name")` to
`if err != nil`: the environment Minio will read, and the error `cmdRun`
returns there, if any. -/
def exportMinioSettings (env : Environ) (domainName : Bytes) : Environ × Option Error :=
  let err := validate none domainName "domain-name"
  let (env, err) := set env err domainName (.ofAscii "MINIO_DOMAIN")
  let (env, err) := set env err (.ofAscii "off") (.ofAscii "MINIO_BROWSER")
  let (env, err) := set env err (.ofAscii "dummy-key-to-satisfy-minio") (.ofAscii "MINIO_ACCESS_KEY")
  set env err (.ofAscii "dummy-key-to-satisfy-minio") (.ofAscii "MINIO_SECRET_KEY")

theorem set_of_accepted {env : Environ} {err : Option Error} {value envName : Bytes}
    (accepted : ¬ Refused envName value) :
    set env err value envName = (Function.update env envName (some value), err) := by
  simp only [set, setenv, if_neg accepted, combine_nil_right]

/-- The error `set` adds when `os.Setenv` refuses a setting. -/
def setenvRefused : Error := .wrapped gatewaySetup (.external "setenv: invalid argument")

theorem set_of_refused {env : Environ} {err : Option Error} {value envName : Bytes}
    (refused : Refused envName value) :
    set env err value envName = (env, combine [err, some setenvRefused]) := by
  simp only [set, setenv, if_pos refused, setenvRefused]

/-- The error `validate` adds for a missing domain name. -/
def missingDomainName : Error := .new gatewaySetup "required parameter --domain-name not set"

theorem validate_domainName (domainName : Bytes) :
    validate none domainName "domain-name" = if domainName = [] then some missingDomainName else none := by
  unfold validate
  split <;> rfl

theorem refused_domain (domainName : Bytes) :
    Refused (.ofAscii "MINIO_DOMAIN") domainName ↔ 0 ∈ domainName := by
  have nonempty : Bytes.ofAscii "MINIO_DOMAIN" ≠ [] := by decide
  have noEquals : 61 ∉ Bytes.ofAscii "MINIO_DOMAIN" := by decide
  have noNul : 0 ∉ Bytes.ofAscii "MINIO_DOMAIN" := by decide
  simp only [Refused, nonempty, noEquals, noNul, false_or]

/-- Minio's four settings are exported whether or not the domain name is
valid, `MINIO_DOMAIN` unless the domain name holds a NUL byte, and `cmdRun`
goes on exactly when the domain name is set and `os.Setenv` accepts it;
otherwise it returns the failures in the order they happened. -/
theorem exportMinioSettings_eq (env : Environ) (domainName : Bytes) :
    exportMinioSettings env domainName =
      (Function.update
        (Function.update
          (Function.update
            (if 0 ∈ domainName then env
              else Function.update env (.ofAscii "MINIO_DOMAIN") (some domainName))
            (.ofAscii "MINIO_BROWSER") (some (.ofAscii "off")))
          (.ofAscii "MINIO_ACCESS_KEY") (some (.ofAscii "dummy-key-to-satisfy-minio")))
        (.ofAscii "MINIO_SECRET_KEY") (some (.ofAscii "dummy-key-to-satisfy-minio")),
       combine [if domainName = [] then some missingDomainName else none,
         if 0 ∈ domainName then some setenvRefused else none]) := by
  simp only [exportMinioSettings, validate_domainName]
  by_cases nul : 0 ∈ domainName
  · rw [set_of_refused ((refused_domain domainName).mpr nul)]
    simp (disch := decide) only [set_of_accepted, nul, if_true]
  · rw [set_of_accepted (mt (refused_domain domainName).mp nul)]
    simp (disch := decide) only [set_of_accepted, nul, if_false, combine_nil_right]

/-! ## Running the peer -/

/-- The goroutine that waits for `ctx.Done()` and then returns
`errs2.IgnoreCanceled(peer.Close())`. -/
inductive Closer where
  | awaitingDone
  | closing
  | exited
  deriving DecidableEq, Repr

/-- The goroutine that returns `errs2.IgnoreCanceled(peer.Run(ctx))`. -/
inductive Runner where
  | running
  | exited
  deriving DecidableEq, Repr

inductive Goroutine where
  | closer
  | runner
  deriving DecidableEq, Repr

/-- Where `cmdRun` stands once the peer is made: blocked in `g.Wait()`, or
returned `err`. -/
inductive Main where
  | waiting
  | returned (err : Option Error)
  deriving Repr

/-- The group and `cmdRun`: `done` once a signal reached `process.Ctx` and
closed `ctx.Done()`; `groupErr` is `g.err`, set by the first goroutine that
returns a non-nil error; `finished` logs the goroutines that have returned,
with what they returned, in order. -/
structure Serving where
  done : Bool
  closer : Closer
  runner : Runner
  groupErr : Option Error
  finished : List (Goroutine × Option Error)
  main : Main
  deriving Repr

/-- Both goroutines started, `cmdRun` in `g.Wait()`. -/
def Serving.init : Serving := ⟨false, .awaitingDone, .running, none, [], .waiting⟩

/-- The moves of the parties: a signal cancels `ctx`; `<-ctx.Done()` returns
in the closing goroutine; `peer.Close()` returns `err`; `peer.Run(ctx)`
returns `err`; `g.Wait()` returns. -/
inductive ServeMove where
  | cancel
  | closerWakes
  | closeReturns (err : Option Error)
  | runReturns (err : Option Error)
  | groupWait
  deriving Repr

/-- A goroutine of the group returns `err`: `g.errOnce` keeps the first
non-nil error as `g.err`, and `g.wg` counts the goroutine as done. -/
def Serving.exit (s : Serving) (goroutine : Goroutine) (err : Option Error) : Serving :=
  let s := { s with groupErr := s.groupErr.or err, finished := s.finished ++ [(goroutine, err)] }
  match goroutine with
  | .closer => { s with closer := .exited }
  | .runner => { s with runner := .exited }

/-- One move of the group both commands build after making their peer; `none`
when it is blocked. -/
def Serving.step (s : Serving) : ServeMove → Option Serving
  | .cancel => if s.done then none else some { s with done := true }
  | .closerWakes =>
      match s.closer, s.done with
      | .awaitingDone, true => some { s with closer := .closing }
      | _, _ => none
  | .closeReturns err =>
      match s.closer with
      | .closing => some (s.exit .closer (ignoreCanceled err))
      | _ => none
  | .runReturns err =>
      match s.runner with
      | .running => some (s.exit .runner (ignoreCanceled err))
      | .exited => none
  | .groupWait =>
      match s.main, s.closer, s.runner with
      | .waiting, .exited, .exited => some { s with main := .returned s.groupErr }
      | _, _, _ => none

/-- `cmdRun` of the gateway from `var g errgroup.Group` on. -/
def gatewayCmdRun : Serving → ServeMove → Option Serving := Serving.step

/-- `cmdRun` of the link sharing service from `var g errgroup.Group` on: the
same two goroutines around its own peer. -/
def linksharingCmdRun : Serving → ServeMove → Option Serving := Serving.step

inductive Serving.Reachable : Serving → Prop where
  | init : Serving.Reachable .init
  | step {s s' : Serving} (move : ServeMove) :
      s.Reachable → s.step move = some s' → s'.Reachable

/-- The first non-nil error of `results`. -/
def firstError (results : List (Option Error)) : Option Error :=
  (results.filterMap id).head?

theorem firstError_append_singleton (results : List (Option Error)) (err : Option Error) :
    firstError (results ++ [err]) = (firstError results).or err := by
  induction results with
  | nil => cases err <;> rfl
  | cons result results ih =>
      cases result with
      | none => exact ih
      | some first => rfl

/-- The goroutine has returned. -/
def Serving.Exited (s : Serving) : Goroutine → Prop
  | .closer => s.closer = .exited
  | .runner => s.runner = .exited

structure Serving.Invariant (s : Serving) : Prop where
  woke : s.closer ≠ .awaitingDone → s.done = true
  first : s.groupErr = firstError (s.finished.map Prod.snd)
  logged : ∀ goroutine, goroutine ∈ s.finished.map Prod.fst ↔ s.Exited goroutine
  once : (s.finished.map Prod.fst).Nodup
  returned : ∀ err, s.main = .returned err →
    err = s.groupErr ∧ s.closer = .exited ∧ s.runner = .exited

theorem Serving.Invariant.init : Serving.init.Invariant where
  woke := fun awaiting => absurd rfl awaiting
  first := rfl
  logged := fun goroutine => by cases goroutine <;> simp [Serving.init, Serving.Exited]
  once := List.nodup_nil
  returned := nofun

@[simp] theorem Serving.finished_exit (s : Serving) (goroutine : Goroutine) (err : Option Error) :
    (s.exit goroutine err).finished = s.finished ++ [(goroutine, err)] := by
  cases goroutine <;> rfl

@[simp] theorem Serving.groupErr_exit (s : Serving) (goroutine : Goroutine) (err : Option Error) :
    (s.exit goroutine err).groupErr = s.groupErr.or err := by
  cases goroutine <;> rfl

@[simp] theorem Serving.main_exit (s : Serving) (goroutine : Goroutine) (err : Option Error) :
    (s.exit goroutine err).main = s.main := by
  cases goroutine <;> rfl

theorem Serving.exited_exit (s : Serving) (goroutine other : Goroutine) (err : Option Error) :
    (s.exit goroutine err).Exited other ↔ other = goroutine ∨ s.Exited other := by
  cases goroutine <;> cases other <;> simp [Serving.exit, Serving.Exited]

/-- A goroutine that had not returned returns, the closer only once `ctx` is
done. -/
theorem Serving.Invariant.exit {s : Serving} (holds : s.Invariant) {goroutine : Goroutine}
    (running : ¬ s.Exited goroutine) (woke : goroutine = .closer → s.done = true)
    (err : Option Error) : (s.exit goroutine err).Invariant where
  woke := by
    cases goroutine
    · exact fun _ => woke rfl
    · exact holds.woke
  first := by rw [Serving.groupErr_exit, Serving.finished_exit, List.map_append,
    List.map_singleton, firstError_append_singleton, holds.first]
  logged := fun other => by
    rw [Serving.exited_exit, ← holds.logged, Serving.finished_exit, List.map_append]
    simp [or_comm]
  once := by
    rw [Serving.finished_exit, List.map_append]
    exact holds.once.append (List.nodup_singleton _)
      (List.disjoint_singleton.mpr fun mem => running ((holds.logged goroutine).mp mem))
  returned := fun err' returned => by
    obtain ⟨_, closer, runner⟩ := holds.returned err' (by rwa [Serving.main_exit] at returned)
    cases goroutine
    · exact absurd closer running
    · exact absurd runner running

theorem Serving.Invariant.step {s s' : Serving} (holds : s.Invariant) {move : ServeMove}
    (moved : s.step move = some s') : s'.Invariant := by
  cases move with
  | cancel =>
      simp only [Serving.step] at moved
      split at moved <;> cases moved
      exact ⟨fun _ => rfl, holds.first, holds.logged, holds.once, holds.returned⟩
  | closerWakes =>
      simp only [Serving.step] at moved
      split at moved <;> cases moved
      rename_i awaiting done
      refine ⟨fun _ => done, holds.first, fun goroutine => ?_, holds.once, fun err returned => ?_⟩
      · cases goroutine <;> simp [holds.logged, Serving.Exited, awaiting]
      · exact absurd (holds.returned err returned).2.1 (by simp [awaiting])
  | closeReturns err =>
      simp only [Serving.step] at moved
      split at moved <;> cases moved
      rename_i closing
      exact holds.exit (show ¬ s.Exited .closer by simp [Serving.Exited, closing])
        (fun _ => holds.woke (by simp [closing])) _
  | runReturns err =>
      simp only [Serving.step] at moved
      split at moved <;> cases moved
      rename_i running
      exact holds.exit (show ¬ s.Exited .runner by simp [Serving.Exited, running]) nofun _
  | groupWait =>
      simp only [Serving.step] at moved
      split at moved <;> cases moved
      rename_i closer runner
      exact ⟨holds.woke, holds.first, holds.logged, holds.once,
        fun err returned => by cases returned; exact ⟨rfl, closer, runner⟩⟩

theorem Serving.Reachable.invariant {s : Serving} (reachable : s.Reachable) : s.Invariant := by
  induction reachable with
  | init => exact .init
  | step _ _ moved holds => exact holds.step moved

theorem goroutines_of_nodup {goroutines : List Goroutine} (once : goroutines.Nodup)
    (all : ∀ goroutine, goroutine ∈ goroutines) :
    goroutines = [.closer, .runner] ∨ goroutines = [.runner, .closer] := by
  have closer := all .closer
  have runner := all .runner
  rcases goroutines with _ | ⟨first, _ | ⟨second, _ | ⟨third, rest⟩⟩⟩
  · simp at closer
  · cases first <;> simp at closer runner
  · cases first <;> cases second <;> simp_all
  · cases first <;> cases second <;> cases third <;> simp at once

/-- A state in which no party can move is one in which `cmdRun` has returned:
the group waits for nothing but the signal, `peer.Run` and `peer.Close`. -/
theorem Serving.returned_of_blocked {s : Serving} (blocked : ∀ move, s.step move = none) :
    ∃ err, s.main = .returned err := by
  cases main : s.main with
  | returned err => exact ⟨err, rfl⟩
  | waiting =>
      have done : s.done = true := by simpa [Serving.step] using blocked .cancel
      have closer : s.closer = .exited := by
        cases closer : s.closer
        · simpa [Serving.step, closer, done] using blocked .closerWakes
        · simpa [Serving.step, closer] using blocked (.closeReturns none)
        · rfl
      have runner : s.runner = .exited := by
        cases runner : s.runner
        · simpa [Serving.step, runner] using blocked (.runReturns none)
        · rfl
      simpa [Serving.step, main, closer, runner] using blocked .groupWait

/-- Whatever `peer.Run` and `peer.Close` return and however the goroutines and
the signal interleave, `peer.Close` is called only once `ctx` is done, no
state is blocked before `cmdRun` returns, and `cmdRun` returns only after `ctx`
was cancelled and both goroutines returned, each once, with the first non-nil
error they returned. -/
theorem cmdRun_returns_after_cancel {s : Serving} (reachable : s.Reachable) :
    (s.closer ≠ .awaitingDone → s.done = true) ∧
      ((∀ move, s.step move = none) → ∃ err, s.main = .returned err) ∧
      ∀ err, s.main = .returned err → s.done = true ∧
        (s.finished.map Prod.fst = [.closer, .runner] ∨
          s.finished.map Prod.fst = [.runner, .closer]) ∧
        err = firstError (s.finished.map Prod.snd) := by
  have holds := reachable.invariant
  refine ⟨holds.woke, Serving.returned_of_blocked, fun err returned => ?_⟩
  obtain ⟨rfl, closer, runner⟩ := holds.returned err returned
  refine ⟨holds.woke (by simp [closer]), goroutines_of_nodup holds.once fun goroutine => ?_,
    holds.first⟩
  cases goroutine
  · exact (holds.logged _).mpr closer
  · exact (holds.logged _).mpr runner

/-- `peer.Run` fails at once; `cmdRun` returns its error, but only after a
signal and the return of `peer.Close`. -/
theorem cmdRun_returns_after_cancel_run_failed :
    ∃ s, Serving.Reachable s ∧
      s.main = .returned (some (.external "listen tcp :7777: bind: address already in use")) ∧
      ((s.closer ≠ .awaitingDone → s.done = true) ∧
        ((∀ move, s.step move = none) → ∃ err, s.main = .returned err) ∧
        ∀ err, s.main = .returned err → s.done = true ∧
          (s.finished.map Prod.fst = [.closer, .runner] ∨
            s.finished.map Prod.fst = [.runner, .closer]) ∧
          err = firstError (s.finished.map Prod.snd)) := by
  have reached : Serving.Reachable
      ⟨true, .exited, .exited, some (.external "listen tcp :7777: bind: address already in use"),
        [(.runner, some (.external "listen tcp :7777: bind: address already in use")),
          (.closer, none)],
        .returned (some (.external "listen tcp :7777: bind: address already in use"))⟩ :=
    ((((Serving.Reachable.init.step
      (.runReturns (some (.external "listen tcp :7777: bind: address already in use"))) rfl).step
      .cancel rfl).step .closerWakes rfl).step (.closeReturns none) rfl).step .groupWait rfl
  exact ⟨_, reached, rfl, cmdRun_returns_after_cancel reached⟩

end GatewayMt.Cmd
