import GatewayMt.Backup.Delivery

/-!
# Stuck runs of `RunOnce`

`RunOnce` never closes the read end of the pipe.  When `PutObject` returns an
error before it has read the snapshot to its end, `RunOnce` returns while the
goroutine stays blocked in `w.Write`; when `PutObject` returns nil early,
`RunOnce` itself blocks in `group.Wait`.  A client that returns only after a
`Read` has returned the writer's close leaves no stuck state.
-/

namespace GatewayMt.Backup

theorem Stuck.not_transition {policy : Policy} {s s' : State} {move : Move}
    (stuck : Stuck policy s) (transition : Transition s move s') (allowed : policy s move) :
    False := by
  have moved := step_eq_some_iff.mpr transition
  rw [stuck.2 move allowed] at moved
  cases moved

/-- Both ways a one-chunk snapshot gets stuck: an upload error before any read
strands the goroutine after `RunOnce` returned, and an early nil upload leaves
`RunOnce` in `group.Wait` for good. -/
theorem runOnce_leaves_snapshot_blocked :
    (∃ s, Reachable ⟨[[7]], none⟩ anyClient s ∧
      s.phase = .returned (some (.external "connection reset"))
        (some (uploadFailed (.external "connection reset"))) ∧
      s.snapshot = .writing [7] [] none ∧ Stuck anyClient s) ∧
    ∃ s, Reachable ⟨[[7]], none⟩ anyClient s ∧ s.phase = .waiting ∧
      s.snapshot = .writing [7] [] none ∧ Stuck anyClient s := by
  refine ⟨⟨_, (Reachable.init : Reachable ⟨[[7]], none⟩ anyClient _).step
      (.putObjectReturns (some (.external "connection reset"))) trivial rfl, rfl, rfl, ?_⟩,
    ⟨_, (Reachable.init : Reachable ⟨[[7]], none⟩ anyClient _).step
      (.putObjectReturns none) trivial rfl, rfl, rfl, ?_⟩⟩
  all_goals
    refine ⟨(fun ⟨_, _, exited⟩ => nomatch exited), fun move _ => ?_⟩
    cases move <;> rfl

theorem Reachable.readErr_of_returned {stream : Stream} {s : State}
    (reachable : Reachable stream drainingClient s) (done : s.phase ≠ .uploading) :
    s.readErr.isSome := by
  induction reachable with
  | init => exact absurd rfl done
  | step move _ allowed moved ih =>
      cases step_eq_some_iff.mp moved with
      | handOff phase _ => exact absurd phase done
      | readClosed phase _ _ => exact absurd phase done
      | uploaded _ => exact allowed none rfl
      | uploadFailed _ => exact allowed _ rfl
      | closed _ => exact ih done
      | waited phase _ => exact ih (by simp [phase])

theorem Reachable.exited_of_returned {stream : Stream} {s : State}
    (reachable : Reachable stream drainingClient s) (done : s.phase ≠ .uploading) :
    s.snapshot.isExited := by
  obtain ⟨err, readErr⟩ := Option.isSome_iff_exists.mp (reachable.readErr_of_returned done)
  have holds := reachable.invariant
  rw [← holds.closed, holds.readErr_stored err readErr]
  rfl

/-- With a client that returns only after a `Read` has returned the writer's
close, no reachable state is stuck, and once `PutObject` has returned the
goroutine has exited. -/
theorem draining_client_never_stuck {stream : Stream} {s : State}
    (reachable : Reachable stream drainingClient s) :
    ¬ Stuck drainingClient s ∧ (s.phase ≠ .uploading → s.snapshot.isExited) := by
  refine ⟨fun stuck => ?_, reachable.exited_of_returned⟩
  have noRead : ∀ size, drainingClient s (.read size) := fun _ _ => nofun
  cases phase : s.phase with
  | uploading =>
      cases snapshot : s.snapshot with
      | writing left rest result =>
          exact stuck.not_transition (.handOff phase snapshot) (noRead 0)
      | closing err =>
          exact stuck.not_transition (.closed snapshot) fun _ => nofun
      | exited result =>
          have closed := reachable.invariant.closed
          rw [snapshot] at closed
          obtain ⟨werr, stored⟩ := Option.isSome_iff_exists.mp closed
          exact stuck.not_transition (.readClosed phase (by simp [snapshot]) stored) (noRead 0)
  | waiting =>
      have exited := reachable.exited_of_returned (by simp [phase])
      cases snapshot : s.snapshot with
      | exited result => exact stuck.not_transition (.waited phase snapshot) fun _ => nofun
      | _ => simp [snapshot, Snapshot.isExited] at exited
  | returned upload err =>
      have exited := reachable.exited_of_returned (by simp [phase])
      cases snapshot : s.snapshot with
      | exited result => exact stuck.1 ⟨⟨upload, err, phase⟩, result, snapshot⟩
      | _ => simp [snapshot, Snapshot.isExited] at exited

/-- A run in which the client reads the one-chunk snapshot and then the
writer's close before `PutObject` returns nil. -/
theorem draining_client_never_stuck_full_run :
    ∃ s, Reachable ⟨[[7]], none⟩ drainingClient s ∧ s.phase = .returned none none ∧
      ¬ Stuck drainingClient s ∧ (s.phase ≠ .uploading → s.snapshot.isExited) := by
  have reached : Reachable ⟨[[7]], none⟩ drainingClient
      ⟨.exited none, some .eof, [7], some .eof, .returned none none⟩ :=
    (((((Reachable.init : Reachable ⟨[[7]], none⟩ drainingClient _).step (.read 1)
      (fun _ => nofun) rfl).step .closeWithError (fun _ => nofun) rfl).step (.read 1)
      (fun _ => nofun) rfl).step (.putObjectReturns none) (fun _ _ => rfl) rfl).step .groupWait
      (fun _ => nofun) rfl
  exact ⟨_, reached, rfl, draining_client_never_stuck reached⟩

end GatewayMt.Backup
