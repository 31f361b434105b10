import GatewayMt.Backup.Pipe

/-!
# What a returned `RunOnce` has delivered

Every reachable state satisfies `Invariant`: the bytes `PutObject` has read,
followed by those the goroutine has still to write, are the whole snapshot, and
the pipe's stored error is `stream.Backup`'s result with `io.EOF` for nil.
Under the streaming contract a nil return of `RunOnce` therefore means that the
whole snapshot was uploaded.  It does not mean that `stream.Backup` returned
nil: an `io.EOF` returned by it reaches the reader as the clean end of the pipe.
-/

namespace GatewayMt.Backup

/-- What holds in every reachable state, whatever the client does. -/
structure Invariant (stream : Stream) (s : State) : Prop where
  delivered : s.received ++ s.snapshot.unsent = stream.chunks.flatten
  follows : s.snapshot.Follows stream.result
  closed : s.werr.isSome = s.snapshot.isExited
  stored : ∀ werr, s.werr = some werr → werr = stream.result.getD .eof
  readErr_stored : ∀ err, s.readErr = some err → s.werr = some err
  returned : ∀ upload err, s.phase = .returned upload err →
    (upload = none ∧ err = none ∧ s.snapshot.isExited) ∨
      ∃ e, upload = some e ∧ err = some (uploadFailed e)

theorem Invariant.init (stream : Stream) : Invariant stream (.init stream) where
  delivered := by simp [State.init]
  follows := by simp [State.init]
  closed := by simp [State.init]
  stored := by simp [State.init]
  readErr_stored := by simp [State.init]
  returned := by simp [State.init]

theorem Invariant.transition {stream : Stream} {s s' : State} {move : Move}
    (holds : Invariant stream s) (transition : Transition s move s') :
    Invariant stream s' := by
  obtain ⟨delivered, follows, closed, stored, readErr_stored, returned⟩ := holds
  cases transition with
  | handOff phase snapshot =>
      rw [snapshot] at delivered follows closed
      simp only [Snapshot.unsent, Snapshot.Follows, Snapshot.isExited] at delivered follows closed
      refine ⟨?_, follows ▸ Snapshot.follows_handOff, by simpa using closed, stored,
        by simp, by simp [phase]⟩
      simp only [Snapshot.unsent_handOff, List.append_assoc]
      rwa [← List.append_assoc (List.take _ _), List.take_append_drop]
  | readClosed phase _ werr =>
      exact ⟨delivered, follows, closed, stored, by rintro err ⟨⟩; exact werr,
        by simp [phase]⟩
  | uploaded phase =>
      exact ⟨delivered, follows, closed, stored, readErr_stored, by simp⟩
  | uploadFailed phase =>
      exact ⟨delivered, follows, closed, stored, readErr_stored, by simp⟩
  | closed snapshot =>
      rw [snapshot] at delivered follows closed
      simp only [Snapshot.unsent, Snapshot.Follows, Snapshot.isExited] at delivered follows closed
      have unopened : s.werr = none := by simpa using closed
      refine ⟨delivered, rfl, rfl, by simp [closeWithError, follows], ?_, ?_⟩
      · intro err readErr
        simp [readErr_stored err readErr] at unopened
      · intro upload err phase
        rcases returned upload err phase with ⟨_, _, exited⟩ | failed
        · simp [snapshot, Snapshot.isExited] at exited
        · exact .inr failed
  | waited phase snapshot =>
      have nilResult : _ := snapshot ▸ follows
      simp only [Snapshot.Follows] at nilResult
      refine ⟨delivered, follows, closed, stored, readErr_stored, ?_⟩
      rintro upload err ⟨⟩
      simp [nilResult, Class.wrap, snapshot, Snapshot.isExited]

theorem Reachable.invariant {stream : Stream} {policy : Policy} {s : State}
    (reachable : Reachable stream policy s) : Invariant stream s := by
  induction reachable with
  | init => exact .init stream
  | step _ _ _ moved holds => exact holds.transition (step_eq_some_iff.mp moved)

/-- Whatever the client does, `PutObject` has read the snapshot in order and
without loss or repetition: what it has read, followed by what the goroutine
has still to write, is the whole snapshot. -/
theorem runOnce_reads_snapshot_in_order {stream : Stream} {policy : Policy} {s : State}
    (reachable : Reachable stream policy s) :
    s.received ++ s.snapshot.unsent = stream.chunks.flatten :=
  reachable.invariant.delivered

/-- After one `Read` of one byte from a two-byte chunk. -/
theorem runOnce_reads_snapshot_in_order_one_byte :
    ∃ s, Reachable ⟨[[7, 8]], none⟩ anyClient s ∧ s.received = [7] ∧
      s.received ++ s.snapshot.unsent = [[(7 : UInt8), 8]].flatten := by
  have reached : Reachable ⟨[[7, 8]], none⟩ anyClient
      ⟨.writing [8] [] none, none, [7], none, .uploading⟩ :=
    (Reachable.init : Reachable ⟨[[7, 8]], none⟩ anyClient _).step (.read 1) trivial rfl
  exact ⟨_, reached, rfl, runOnce_reads_snapshot_in_order reached⟩

/-- `PutObject` has returned nil. -/
def State.Uploaded (s : State) : Prop :=
  s.phase = .waiting ∨ ∃ err, s.phase = .returned none err

theorem Reachable.eof_of_uploaded {stream : Stream} {s : State}
    (reachable : Reachable stream streamingClient s) (uploaded : s.Uploaded) :
    s.readErr = some .eof := by
  induction reachable with
  | init => simp [State.Uploaded, State.init] at uploaded
  | step move _ allowed moved ih =>
      cases step_eq_some_iff.mp moved with
      | handOff phase _ => simp [State.Uploaded, phase] at uploaded
      | readClosed phase _ _ => simp [State.Uploaded, phase] at uploaded
      | uploaded _ => exact allowed rfl
      | uploadFailed _ => simp [State.Uploaded] at uploaded
      | closed _ => exact ih uploaded
      | waited phase _ => exact ih (.inl phase)

theorem backupError_has_uploadFailed (err : Error) :
    backupError.has (uploadFailed err) = true :=
  rfl

/-- Under the streaming contract, when `RunOnce` returns nil the upload
succeeded after reading the whole snapshot, and `stream.Backup` returned nil or
`io.EOF`; every other return is a `BackupError`. -/
theorem runOnce_result_of_streaming {stream : Stream} {s : State}
    {upload err : Option Error} (reachable : Reachable stream streamingClient s)
    (returned : s.phase = .returned upload err) :
    (err = none → upload = none ∧ s.received = stream.chunks.flatten ∧
        (stream.result = none ∨ stream.result = some .eof)) ∧
      ∀ e, err = some e → backupError.has e = true := by
  have holds := reachable.invariant
  rcases holds.returned upload err returned with ⟨rfl, rfl, exited⟩ | ⟨e, rfl, rfl⟩
  · refine ⟨fun _ => ⟨rfl, ?_, ?_⟩, by simp⟩
    · simpa [Snapshot.unsent_eq_nil_of_isExited exited] using holds.delivered
    · have eof := reachable.eof_of_uploaded (.inr ⟨none, returned⟩)
      have stored := holds.stored _ (holds.readErr_stored _ eof)
      cases result : stream.result with
      | none => exact .inl rfl
      | some e =>
          rw [result] at stored
          exact .inr (congrArg some stored.symm)
  · exact ⟨nofun, fun _ failed => Option.some.inj failed ▸ backupError_has_uploadFailed e⟩

/-- A run in which `PutObject` reads the one-chunk snapshot and then `io.EOF`. -/
theorem runOnce_result_of_streaming_completed_run :
    ∃ s upload err, Reachable ⟨[[7]], none⟩ streamingClient s ∧
      s.phase = .returned upload err ∧
      (err = none → upload = none ∧ s.received = [[(7 : UInt8)]].flatten ∧
        ((none : Option Error) = none ∨ (none : Option Error) = some .eof)) ∧
      ∀ e, err = some e → backupError.has e = true := by
  have reached : Reachable ⟨[[7]], none⟩ streamingClient
      ⟨.exited none, some .eof, [7], some .eof, .returned none none⟩ :=
    (((((Reachable.init : Reachable ⟨[[7]], none⟩ streamingClient _).step (.read 1) nofun
      rfl).step .closeWithError nofun rfl).step (.read 1) nofun rfl).step
      (.putObjectReturns none) (fun _ => rfl) rfl).step .groupWait nofun rfl
  exact ⟨_, none, none, reached, rfl, runOnce_result_of_streaming reached rfl⟩

/-- `stream.Backup` returns `io.EOF` after its one chunk: `CloseWithError` passes
it on as the clean end of the pipe, and `RunOnce` returns nil. -/
theorem stream_eof_reads_as_clean_end :
    Reachable ⟨[[7]], some .eof⟩ streamingClient
      ⟨.exited none, some .eof, [7], some .eof, .returned none none⟩ :=
  (((((Reachable.init : Reachable ⟨[[7]], some .eof⟩ streamingClient _).step (.read 1) nofun
    rfl).step .closeWithError nofun rfl).step (.read 1) nofun rfl).step
    (.putObjectReturns none) (fun _ => rfl) rfl).step .groupWait nofun rfl

end GatewayMt.Backup
