import GatewayMt.Bytes

/-!
# `Backup.RunOnce` as three parties around an `io.Pipe`

`RunOnce` starts one goroutine that streams a database snapshot into the write
end of a pipe, hands the read end to `Client.PutObject`, and after a successful
upload waits for the goroutine in `group.Wait`.  A state records where each
party stands and `step` is one atomic move of one party.  Go's pipe buffers
nothing: a `Write` is handed to `Read` calls piece by piece, and after
`CloseWithError` every `Read` returns the stored error, `io.EOF` for nil.
Nobody closes the read end, so no `Write` of the goroutine can fail.
-/

namespace GatewayMt.Backup

/-- The Go errors that reach `RunOnce`: `io.EOF`; an error reported by
`stream.Backup` or by the object store; `fmt.Errorf(message + "%w", cause)`;
and an error tagged with an `errs.Class`. -/
inductive Error where
  | eof
  | external (text : String)
  | wrapped (message : String) (cause : Error)
  | classed (name : String) (cause : Error)
  deriving DecidableEq, Repr

/-- An `errs.Class`. -/
structure Class where
  name : String
  deriving DecidableEq, Repr

/-- `errs.Class.New`: the formatted error, tagged with the class. -/
def Class.new (cls : Class) (formatted : Error) : Error :=
  .classed cls.name formatted

/-- `errs.Class.Wrap`: nil stays nil, any other error is tagged. -/
def Class.wrap (cls : Class) : Option Error → Option Error
  | none => none
  | some err => some (.classed cls.name err)

/-- `errs.Class.Has`: some error along the wrap chain carries the class. -/
def Class.has (cls : Class) : Error → Bool
  | .classed name cause => name == cls.name || cls.has cause
  | .wrapped _ cause => cls.has cause
  | _ => false

/-- `var BackupError = errs.Class("backup")`. -/
def backupError : Class := ⟨"backup"⟩

/-- `BackupError.New("upload object: %w", err)`. -/
def uploadFailed (err : Error) : Error :=
  backupError.new (.wrapped "upload object: " err)

/-- What `stream.Backup(w, 0)` does in one run: the chunks it writes, and the
error it returns once they are written (`none` is nil). -/
structure Stream where
  chunks : List Bytes
  result : Option Error

/-- The snapshot goroutine: blocked in `w.Write` offering `left`, with `rest`
the chunks after it and `result` what `stream.Backup` will return; about to
call `w.CloseWithError(err)` once `stream.Backup` returned `err`; or returned
`result` to the group. -/
inductive Snapshot where
  | writing (left : Bytes) (rest : List Bytes) (result : Option Error)
  | closing (err : Option Error)
  | exited (result : Option Error)
  deriving DecidableEq, Repr

/-- `stream.Backup` from its next write on: each chunk is one `w.Write`. -/
def Snapshot.backup : List Bytes → Option Error → Snapshot
  | [], result => .closing result
  | chunk :: rest, result => .writing chunk rest result

/-- The bytes the goroutine has still to write. -/
def Snapshot.unsent : Snapshot → Bytes
  | .writing left rest _ => left ++ rest.flatten
  | .closing _ => []
  | .exited _ => []

def Snapshot.isExited : Snapshot → Bool
  | .writing .. => false
  | .closing _ => false
  | .exited _ => true

/-- The goroutine carries `result` as what `stream.Backup` returns, and returns
nil itself. -/
def Snapshot.Follows (result : Option Error) : Snapshot → Prop
  | .writing _ _ carried => carried = result
  | .closing carried => carried = result
  | .exited returned => returned = none

/-- The goroutine after a `Read` took what it asked for of the offer: the
`Write` goes on while bytes are left, and returns otherwise. -/
def Snapshot.handOff (left : Bytes) (rest : List Bytes) (result : Option Error) :
    Snapshot :=
  if left = [] then Snapshot.backup rest result else .writing left rest result

@[simp] theorem Snapshot.unsent_backup (chunks : List Bytes) (result : Option Error) :
    (Snapshot.backup chunks result).unsent = chunks.flatten := by
  cases chunks <;> rfl

@[simp] theorem Snapshot.isExited_backup (chunks : List Bytes) (result : Option Error) :
    (Snapshot.backup chunks result).isExited = false := by
  cases chunks <;> rfl

@[simp] theorem Snapshot.follows_backup {chunks : List Bytes} {result : Option Error} :
    (Snapshot.backup chunks result).Follows result := by
  cases chunks <;> rfl

@[simp] theorem Snapshot.unsent_handOff (left : Bytes) (rest : List Bytes)
    (result : Option Error) :
    (Snapshot.handOff left rest result).unsent = left ++ rest.flatten := by
  unfold Snapshot.handOff
  split
  · subst left
    simp
  · rfl

@[simp] theorem Snapshot.isExited_handOff (left : Bytes) (rest : List Bytes)
    (result : Option Error) :
    (Snapshot.handOff left rest result).isExited = false := by
  unfold Snapshot.handOff
  split
  · simp
  · rfl

@[simp] theorem Snapshot.follows_handOff {left : Bytes} {rest : List Bytes}
    {result : Option Error} :
    (Snapshot.handOff left rest result).Follows result := by
  unfold Snapshot.handOff
  split
  · simp
  · rfl

theorem Snapshot.unsent_eq_nil_of_isExited {snapshot : Snapshot}
    (exited : snapshot.isExited) : snapshot.unsent = [] := by
  cases snapshot <;> simp_all [Snapshot.isExited, Snapshot.unsent]

/-- `w.CloseWithError(err)`: the pipe stores `err`, `io.EOF` for nil, as what
every later `Read` returns, and the call itself returns nil. -/
def closeWithError (err : Option Error) : Error × Option Error :=
  (err.getD .eof, none)

/-- Where `RunOnce` stands: blocked in `b.Client.PutObject`; blocked in
`group.Wait` after `PutObject` returned nil; or returned `err`, `upload` being
what `PutObject` had returned. -/
inductive Phase where
  | uploading
  | waiting
  | returned (upload err : Option Error)
  deriving DecidableEq, Repr

/-- The three parties around the pipe: `werr` is the pipe's write-side error,
stored by `CloseWithError`; `received` the bytes `PutObject` has read; and
`readErr` the error the last `Read` returned. -/
structure State where
  snapshot : Snapshot
  werr : Option Error
  received : Bytes
  readErr : Option Error
  phase : Phase
  deriving DecidableEq, Repr

/-- `r, w := io.Pipe()`, the goroutine started, `PutObject` called. -/
def State.init (stream : Stream) : State where
  snapshot := Snapshot.backup stream.chunks stream.result
  werr := none
  received := []
  readErr := none
  phase := .uploading

/-- The moves of the parties: `PutObject` calls `r.Read` with a buffer of
`size` bytes; `PutObject` returns `err`; the goroutine calls
`w.CloseWithError` and returns; `group.Wait` returns. -/
inductive Move where
  | read (size : Nat)
  | putObjectReturns (err : Option Error)
  | closeWithError
  | groupWait
  deriving DecidableEq, Repr

/-- One move; `none` when the move is blocked or not the mover's turn. -/
def step (s : State) : Move → Option State
  | .read size =>
      match s.phase, s.snapshot, s.werr with
      | .uploading, .writing left rest result, _ =>
          some { s with
            received := s.received ++ left.take size
            readErr := none
            snapshot := Snapshot.handOff (left.drop size) rest result }
      | .uploading, _, some werr => some { s with readErr := some werr }
      | _, _, _ => none
  | .putObjectReturns err =>
      match s.phase, err with
      | .uploading, none => some { s with phase := .waiting }
      | .uploading, some e => some { s with phase := .returned err (some (uploadFailed e)) }
      | _, _ => none
  | .closeWithError =>
      match s.snapshot with
      | .closing err =>
          some { s with
            werr := some (closeWithError err).1
            snapshot := .exited (closeWithError err).2 }
      | _ => none
  | .groupWait =>
      match s.phase, s.snapshot with
      | .waiting, .exited result =>
          some { s with phase := .returned none (backupError.wrap result) }
      | _, _ => none

/-- The branches of `step`, one constructor each. -/
inductive Transition : State → Move → State → Prop where
  | handOff {s : State} {size : Nat} {left : Bytes} {rest : List Bytes}
      {result : Option Error} :
      s.phase = .uploading → s.snapshot = .writing left rest result →
      Transition s (.read size)
        { s with
          received := s.received ++ left.take size
          readErr := none
          snapshot := Snapshot.handOff (left.drop size) rest result }
  | readClosed {s : State} {size : Nat} {werr : Error} :
      s.phase = .uploading → (∀ left rest result, s.snapshot ≠ .writing left rest result) →
      s.werr = some werr →
      Transition s (.read size) { s with readErr := some werr }
  | uploaded {s : State} :
      s.phase = .uploading →
      Transition s (.putObjectReturns none) { s with phase := .waiting }
  | uploadFailed {s : State} {err : Error} :
      s.phase = .uploading →
      Transition s (.putObjectReturns (some err))
        { s with phase := .returned (some err) (some (uploadFailed err)) }
  | closed {s : State} {err : Option Error} :
      s.snapshot = .closing err →
      Transition s .closeWithError
        { s with
          werr := some (closeWithError err).1
          snapshot := .exited (closeWithError err).2 }
  | waited {s : State} {result : Option Error} :
      s.phase = .waiting → s.snapshot = .exited result →
      Transition s .groupWait { s with phase := .returned none (backupError.wrap result) }

theorem step_eq_some_iff {s s' : State} {move : Move} :
    step s move = some s' ↔ Transition s move s' := by
  constructor
  · intro moved
    cases move with
    | read size =>
        simp only [step] at moved
        split at moved
        · cases moved
          exact .handOff ‹_› ‹_›
        · cases moved
          exact .readClosed ‹_› (by intro left rest result; simp_all) ‹_›
        · cases moved
    | putObjectReturns err =>
        simp only [step] at moved
        split at moved <;> cases moved
        · exact .uploaded ‹_›
        · exact .uploadFailed ‹_›
    | closeWithError =>
        simp only [step] at moved
        split at moved <;> cases moved
        exact .closed ‹_›
    | groupWait =>
        simp only [step] at moved
        split at moved <;> cases moved
        exact .waited ‹_› ‹_›
  · intro transition
    cases transition with
    | handOff phase snapshot => simp [step, phase, snapshot]
    | readClosed phase notWriting werr =>
        unfold step
        split <;> simp_all
    | uploaded phase => simp [step, phase]
    | uploadFailed phase => simp [step, phase]
    | closed snapshot => simp [step, snapshot]
    | waited phase snapshot => simp [step, phase, snapshot]

/-- Which moves a client's `PutObject` may make in a state; the goroutine's and
`RunOnce`'s own moves are never restricted. -/
abbrev Policy := State → Move → Prop

/-- Any `PutObject`: it reads in any sizes and returns anything at any point. -/
def anyClient : Policy := fun _ _ => True

/-- The size `-1` streaming contract: success only after a `Read` returned
`io.EOF`; an error may come at any point. -/
def streamingClient : Policy := fun s move =>
  move = .putObjectReturns none → s.readErr = some .eof

/-- A `PutObject` that returns, either way, only after a `Read` returned the
writer's close. -/
def drainingClient : Policy := fun s move =>
  ∀ err, move = .putObjectReturns err → s.readErr.isSome

inductive Reachable (stream : Stream) (policy : Policy) : State → Prop where
  | init : Reachable stream policy (.init stream)
  | step {s s' : State} (move : Move) :
      Reachable stream policy s → policy s move → step s move = some s' →
      Reachable stream policy s'

/-- Both `RunOnce` and the goroutine have returned. -/
def Terminal (s : State) : Prop :=
  (∃ upload err, s.phase = .returned upload err) ∧ ∃ result, s.snapshot = .exited result

/-- No party can ever move again, though not everything has returned. -/
def Stuck (policy : Policy) (s : State) : Prop :=
  ¬ Terminal s ∧ ∀ move, policy s move → step s move = none

end GatewayMt.Backup
