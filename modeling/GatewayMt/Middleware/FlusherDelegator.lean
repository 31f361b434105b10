import GatewayMt.Bytes

/-!
# Bookkeeping of `flusherDelegator`

The delegator wraps an `http.ResponseWriter` and records the status code, the
number of bytes written and whether the two measure functions have run.  Its
calls of the wrapped writer and of the measure functions form a log, and
`Agrees` says that the bookkeeping is an exact summary of that log.
`WriteHeader` and `Write` have pointer receivers; `Flush` has a value receiver,
so the `WriteHeader(http.StatusOK)` it may make changes only a copy.
-/

namespace GatewayMt.Middleware

/-- A call that reached the wrapped writer or a measure function; `write b n`
is the wrapped writer's `Write(b)`, which returned `n` bytes written. -/
inductive Effect where
  | writeHeader (code : Int)
  | write (b : Bytes) (n : Int)
  | flush
  | atWriteHeader (code : Int)
  | atTimeToFirstByte (code : Int)
  deriving DecidableEq, Repr

/-- The fields of `flusherDelegator`; a measure function is kept only as whether
it is non-nil. -/
structure FlusherDelegator where
  atWriteHeaderFunc : Bool
  atTimeToFirstByteFunc : Bool
  status : Int
  written : BitVec 64
  wroteHeader : Bool
  observedTimeToFirstByte : Bool
  deriving DecidableEq, Repr

/-- `http.StatusOK`. -/
def statusOK : Int := 200

/-- A delegator with zero bookkeeping. -/
def FlusherDelegator.zero (atWriteHeaderFunc atTimeToFirstByteFunc : Bool) :
    FlusherDelegator :=
  ⟨atWriteHeaderFunc, atTimeToFirstByteFunc, 0, 0, false, false⟩

/-- `(*flusherDelegator).WriteHeader(code)`. -/
def FlusherDelegator.writeHeader (f : FlusherDelegator) (code : Int) :
    FlusherDelegator × List Effect :=
  ({ f with status := code, wroteHeader := true },
    (if f.atWriteHeaderFunc && !f.wroteHeader then [.atWriteHeader code] else []) ++
      [.writeHeader code])

/-- `(*flusherDelegator).Write(b)`, where the wrapped writer's `Write` returns `n`. -/
def FlusherDelegator.write (f : FlusherDelegator) (b : Bytes) (n : Int) :
    FlusherDelegator × List Effect :=
  let (f, header) := if !f.wroteHeader then f.writeHeader statusOK else (f, [])
  let (f, measured) :=
    if f.atTimeToFirstByteFunc && !f.observedTimeToFirstByte then
      ({ f with observedTimeToFirstByte := true }, [.atTimeToFirstByte f.status])
    else (f, [])
  ({ f with written := f.written + BitVec.ofInt 64 n }, header ++ .write b n :: measured)

/-- `flusherDelegator.Flush()`: the receiver is a copy, so the delegator itself
is unchanged, and only the calls its `WriteHeader` makes remain. -/
def FlusherDelegator.flush (f : FlusherDelegator) : FlusherDelegator × List Effect :=
  (f, (if !f.wroteHeader then (f.writeHeader statusOK).2 else []) ++ [.flush])

/-- A call on the delegator; `write b n` is `Write(b)`, with `n` the count the
wrapped writer returns. -/
inductive Call where
  | writeHeader (code : Int)
  | write (b : Bytes) (n : Int)
  | flush
  deriving DecidableEq, Repr

def FlusherDelegator.call (f : FlusherDelegator) : Call → FlusherDelegator × List Effect
  | .writeHeader code => f.writeHeader code
  | .write b n => f.write b n
  | .flush => f.flush

/-- The delegator and the log after `calls`, starting from `f` and `log`. -/
def FlusherDelegator.run (f : FlusherDelegator) (log : List Effect) :
    List Call → FlusherDelegator × List Effect
  | [] => (f, log)
  | c :: calls => (f.call c).1.run (log ++ (f.call c).2) calls

/-! ## Reading the log -/

def Effect.header? : Effect → Option Int
  | .writeHeader code => some code
  | _ => none

def Effect.count? : Effect → Option Int
  | .write _ n => some n
  | _ => none

def Effect.atWriteHeader? : Effect → Option Int
  | .atWriteHeader code => some code
  | _ => none

def Effect.atTimeToFirstByte? : Effect → Option Int
  | .atTimeToFirstByte code => some code
  | _ => none

/-- The codes of the `WriteHeader` calls the wrapped writer received. -/
def headers (log : List Effect) : List Int := log.filterMap Effect.header?

/-- The counts the wrapped writer's `Write` calls returned. -/
def counts (log : List Effect) : List Int := log.filterMap Effect.count?

def atWriteHeaderCalls (log : List Effect) : List Int := log.filterMap Effect.atWriteHeader?

def atTimeToFirstByteCalls (log : List Effect) : List Int :=
  log.filterMap Effect.atTimeToFirstByte?

/-- The `int64` sum of the counts. -/
def tally (counts : List Int) : BitVec 64 :=
  counts.foldl (fun total n => total + BitVec.ofInt 64 n) 0

@[simp] theorem headers_append (log log' : List Effect) :
    headers (log ++ log') = headers log ++ headers log' := List.filterMap_append ..

@[simp] theorem counts_append (log log' : List Effect) :
    counts (log ++ log') = counts log ++ counts log' := List.filterMap_append ..

@[simp] theorem atWriteHeaderCalls_append (log log' : List Effect) :
    atWriteHeaderCalls (log ++ log') = atWriteHeaderCalls log ++ atWriteHeaderCalls log' :=
  List.filterMap_append ..

@[simp] theorem atTimeToFirstByteCalls_append (log log' : List Effect) :
    atTimeToFirstByteCalls (log ++ log') =
      atTimeToFirstByteCalls log ++ atTimeToFirstByteCalls log' :=
  List.filterMap_append ..

@[simp] theorem tally_append_singleton (counts : List Int) (n : Int) :
    tally (counts ++ [n]) = tally counts + BitVec.ofInt 64 n := by
  simp [tally]

@[simp] theorem writeHeader_fst (f : FlusherDelegator) (code : Int) :
    (f.writeHeader code).1 = { f with status := code, wroteHeader := true } := rfl

@[simp] theorem headers_writeHeader (f : FlusherDelegator) (code : Int) :
    headers (f.writeHeader code).2 = [code] := by
  unfold FlusherDelegator.writeHeader
  split <;> rfl

@[simp] theorem counts_writeHeader (f : FlusherDelegator) (code : Int) :
    counts (f.writeHeader code).2 = [] := by
  unfold FlusherDelegator.writeHeader
  split <;> rfl

@[simp] theorem atWriteHeaderCalls_writeHeader (f : FlusherDelegator) (code : Int) :
    atWriteHeaderCalls (f.writeHeader code).2 =
      if f.atWriteHeaderFunc && !f.wroteHeader then [code] else [] := by
  unfold FlusherDelegator.writeHeader
  split <;> simp_all [atWriteHeaderCalls, Effect.atWriteHeader?]

@[simp] theorem atTimeToFirstByteCalls_writeHeader (f : FlusherDelegator) (code : Int) :
    atTimeToFirstByteCalls (f.writeHeader code).2 = [] := by
  unfold FlusherDelegator.writeHeader
  split <;> rfl

@[simp] theorem write_fst (f : FlusherDelegator) (b : Bytes) (n : Int) :
    (f.write b n).1 =
      { f with
        status := if f.wroteHeader then f.status else statusOK
        wroteHeader := true
        written := f.written + BitVec.ofInt 64 n
        observedTimeToFirstByte := f.observedTimeToFirstByte || f.atTimeToFirstByteFunc } := by
  rcases f with ⟨_, atTimeToFirstByteFunc, _, _, wroteHeader, observed⟩
  cases wroteHeader <;> cases atTimeToFirstByteFunc <;> cases observed <;> rfl

@[simp] theorem headers_write (f : FlusherDelegator) (b : Bytes) (n : Int) :
    headers (f.write b n).2 = if f.wroteHeader then [] else [statusOK] := by
  rcases f with ⟨atWriteHeaderFunc, atTimeToFirstByteFunc, _, _, wroteHeader, observed⟩
  cases atWriteHeaderFunc <;> cases wroteHeader <;> cases atTimeToFirstByteFunc <;>
    cases observed <;> rfl

@[simp] theorem counts_write (f : FlusherDelegator) (b : Bytes) (n : Int) :
    counts (f.write b n).2 = [n] := by
  rcases f with ⟨atWriteHeaderFunc, atTimeToFirstByteFunc, _, _, wroteHeader, observed⟩
  cases atWriteHeaderFunc <;> cases wroteHeader <;> cases atTimeToFirstByteFunc <;>
    cases observed <;> rfl

@[simp] theorem atWriteHeaderCalls_write (f : FlusherDelegator) (b : Bytes) (n : Int) :
    atWriteHeaderCalls (f.write b n).2 =
      if f.atWriteHeaderFunc && !f.wroteHeader then [statusOK] else [] := by
  rcases f with ⟨atWriteHeaderFunc, atTimeToFirstByteFunc, _, _, wroteHeader, observed⟩
  cases atWriteHeaderFunc <;> cases wroteHeader <;> cases atTimeToFirstByteFunc <;>
    cases observed <;> rfl

/-- The first-byte measure runs with the status the header was sent with. -/
@[simp] theorem atTimeToFirstByteCalls_write (f : FlusherDelegator) (b : Bytes) (n : Int) :
    atTimeToFirstByteCalls (f.write b n).2 =
      if f.atTimeToFirstByteFunc && !f.observedTimeToFirstByte then
        [if f.wroteHeader then f.status else statusOK]
      else [] := by
  rcases f with ⟨atWriteHeaderFunc, atTimeToFirstByteFunc, _, _, wroteHeader, observed⟩
  cases atWriteHeaderFunc <;> cases wroteHeader <;> cases atTimeToFirstByteFunc <;>
    cases observed <;> rfl

@[simp] theorem flush_fst (f : FlusherDelegator) : f.flush.1 = f := rfl

@[simp] theorem headers_flush (f : FlusherDelegator) :
    headers f.flush.2 = if f.wroteHeader then [] else [statusOK] := by
  rcases f with ⟨atWriteHeaderFunc, _, _, _, wroteHeader, _⟩
  cases atWriteHeaderFunc <;> cases wroteHeader <;> rfl

@[simp] theorem counts_flush (f : FlusherDelegator) : counts f.flush.2 = [] := by
  rcases f with ⟨atWriteHeaderFunc, _, _, _, wroteHeader, _⟩
  cases atWriteHeaderFunc <;> cases wroteHeader <;> rfl

@[simp] theorem atWriteHeaderCalls_flush (f : FlusherDelegator) :
    atWriteHeaderCalls f.flush.2 =
      if f.atWriteHeaderFunc && !f.wroteHeader then [statusOK] else [] := by
  rcases f with ⟨atWriteHeaderFunc, _, _, _, wroteHeader, _⟩
  cases atWriteHeaderFunc <;> cases wroteHeader <;> rfl

@[simp] theorem atTimeToFirstByteCalls_flush (f : FlusherDelegator) :
    atTimeToFirstByteCalls f.flush.2 = [] := by
  rcases f with ⟨atWriteHeaderFunc, _, _, _, wroteHeader, _⟩
  cases atWriteHeaderFunc <;> cases wroteHeader <;> rfl

/-- What the bookkeeping says about the writes, whatever the calls. -/
structure Tracks (f : FlusherDelegator) (log : List Effect) : Prop where
  written : f.written = tally (counts log)
  observed : f.observedTimeToFirstByte = (f.atTimeToFirstByteFunc && !(counts log).isEmpty)
  atTimeToFirstByte : (atTimeToFirstByteCalls log).length =
    if f.atTimeToFirstByteFunc && !(counts log).isEmpty then 1 else 0
  lastHeader : f.wroteHeader = true → f.status = ((headers log).getLast?).getD 0

/-- The bookkeeping is an exact summary of the log. -/
structure Agrees (f : FlusherDelegator) (log : List Effect) extends Tracks f log : Prop where
  wroteHeader : f.wroteHeader = true ↔ headers log ≠ []
  status : f.status = ((headers log).getLast?).getD 0
  atWriteHeader : atWriteHeaderCalls log = if f.atWriteHeaderFunc then (headers log).take 1 else []

theorem Tracks.zero (atWriteHeaderFunc atTimeToFirstByteFunc : Bool) :
    Tracks (.zero atWriteHeaderFunc atTimeToFirstByteFunc) [] := by
  constructor <;> simp [FlusherDelegator.zero, tally, counts, atTimeToFirstByteCalls]

theorem Agrees.zero (atWriteHeaderFunc atTimeToFirstByteFunc : Bool) :
    Agrees (.zero atWriteHeaderFunc atTimeToFirstByteFunc) [] :=
  ⟨.zero _ _, by simp [FlusherDelegator.zero, headers], by simp [FlusherDelegator.zero, headers],
    by simp [atWriteHeaderCalls, headers]⟩

theorem Tracks.writeHeader {f : FlusherDelegator} {log : List Effect} (tracks : Tracks f log)
    (code : Int) : Tracks (f.writeHeader code).1 (log ++ (f.writeHeader code).2) := by
  obtain ⟨written, observed, atTimeToFirstByte, _⟩ := tracks
  exact ⟨by simpa using written, by simpa using observed, by simpa using atTimeToFirstByte,
    by simp⟩

theorem Tracks.write {f : FlusherDelegator} {log : List Effect} (tracks : Tracks f log)
    (b : Bytes) (n : Int) : Tracks (f.write b n).1 (log ++ (f.write b n).2) := by
  obtain ⟨written, observed, atTimeToFirstByte, lastHeader⟩ := tracks
  refine ⟨by simp [written], ?_, ?_, ?_⟩
  · cases hasFunc : f.atTimeToFirstByteFunc <;> simp [observed, hasFunc, List.isEmpty_iff]
  · cases hasFunc : f.atTimeToFirstByteFunc <;> by_cases noWrites : counts log = [] <;>
      simp_all
  · cases wrote : f.wroteHeader <;> simp_all

theorem Tracks.flush {f : FlusherDelegator} {log : List Effect} (tracks : Tracks f log) :
    Tracks f.flush.1 (log ++ f.flush.2) := by
  obtain ⟨written, observed, atTimeToFirstByte, lastHeader⟩ := tracks
  refine ⟨by simp [written], by simp [observed], by simp [atTimeToFirstByte], ?_⟩
  intro wrote
  change f.wroteHeader = true at wrote
  simp [wrote, lastHeader wrote]

theorem Tracks.call {f : FlusherDelegator} {log : List Effect} (tracks : Tracks f log)
    (c : Call) : Tracks (f.call c).1 (log ++ (f.call c).2) := by
  cases c with
  | writeHeader code => exact tracks.writeHeader code
  | write b n => exact tracks.write b n
  | flush => exact tracks.flush

theorem Tracks.run {f : FlusherDelegator} {log : List Effect} (tracks : Tracks f log)
    (calls : List Call) : Tracks (f.run log calls).1 (f.run log calls).2 := by
  induction calls generalizing f log with
  | nil => exact tracks
  | cons c calls ih => exact ih (tracks.call c)

/-- A header joining the log keeps the first-header measure in step. -/
private theorem take_one_append_header {headers : List Int} (sent : headers ≠ [])
    (code : Int) : (headers ++ [code]).take 1 = headers.take 1 := by
  obtain ⟨first, rest, rfl⟩ := List.exists_cons_of_ne_nil sent
  rfl

theorem Agrees.writeHeader {f : FlusherDelegator} {log : List Effect} (agrees : Agrees f log)
    (code : Int) : Agrees (f.writeHeader code).1 (log ++ (f.writeHeader code).2) := by
  obtain ⟨tracks, wroteHeader, _, atWriteHeader⟩ := agrees
  refine ⟨tracks.writeHeader code, by simp, by simp, ?_⟩
  cases wrote : f.wroteHeader
  · have none : headers log = [] := by simpa [wrote] using wroteHeader
    cases f.atWriteHeaderFunc <;> simp_all
  · have sent : headers log ≠ [] := wroteHeader.mp wrote
    simp [atWriteHeader, wrote, take_one_append_header sent]

theorem Agrees.write {f : FlusherDelegator} {log : List Effect} (agrees : Agrees f log)
    (b : Bytes) (n : Int) : Agrees (f.write b n).1 (log ++ (f.write b n).2) := by
  obtain ⟨tracks, wroteHeader, status, atWriteHeader⟩ := agrees
  refine ⟨tracks.write b n, ?_, ?_, ?_⟩
  · cases wrote : f.wroteHeader <;> simp_all
  · cases wrote : f.wroteHeader <;> simp_all
  · cases wrote : f.wroteHeader
    · have none : headers log = [] := by simpa [wrote] using wroteHeader
      cases f.atWriteHeaderFunc <;> simp_all
    · simp [atWriteHeader, wrote]

theorem Agrees.flush {f : FlusherDelegator} {log : List Effect} (agrees : Agrees f log)
    (wrote : f.wroteHeader = true) : Agrees f.flush.1 (log ++ f.flush.2) := by
  obtain ⟨tracks, wroteHeader, status, atWriteHeader⟩ := agrees
  exact ⟨tracks.flush, by simpa [wrote] using wroteHeader, by simpa [wrote] using status,
    by simpa [wrote] using atWriteHeader⟩

theorem Agrees.call {f : FlusherDelegator} {log : List Effect} (agrees : Agrees f log)
    (c : Call) (headerFirst : c = .flush → f.wroteHeader = true) :
    Agrees (f.call c).1 (log ++ (f.call c).2) := by
  cases c with
  | writeHeader code => exact agrees.writeHeader code
  | write b n => exact agrees.write b n
  | flush => exact agrees.flush (headerFirst rfl)

theorem wroteHeader_call {f : FlusherDelegator} {c : Call}
    (headerFirst : c = .flush → f.wroteHeader = true) : (f.call c).1.wroteHeader = true := by
  cases c with
  | writeHeader code => rfl
  | write b n => simp [FlusherDelegator.call]
  | flush => exact headerFirst rfl

theorem Agrees.run {f : FlusherDelegator} {log : List Effect} (agrees : Agrees f log)
    (calls : List Call) (headerFirst : calls.head? = some .flush → f.wroteHeader = true) :
    Agrees (f.run log calls).1 (f.run log calls).2 := by
  induction calls generalizing f log with
  | nil => exact agrees
  | cons c calls ih =>
      have first : c = .flush → f.wroteHeader = true := fun isFlush =>
        headerFirst (by simp [isFlush])
      exact ih (agrees.call c first) fun _ => wroteHeader_call first

/-- Whatever the calls, `written` is the `int64` sum of the counts the wrapped
writer returned, a non-nil first-byte measure has run once exactly when a
`Write` reached the wrapped writer, and once `wroteHeader` holds `status` is
the code of the last header sent. -/
theorem run_tracks_writes (atWriteHeaderFunc atTimeToFirstByteFunc : Bool)
    (calls : List Call) :
    Tracks ((FlusherDelegator.zero atWriteHeaderFunc atTimeToFirstByteFunc).run [] calls).1
      ((FlusherDelegator.zero atWriteHeaderFunc atTimeToFirstByteFunc).run [] calls).2 :=
  (Tracks.zero _ _).run calls

/-- Unless the first call is `Flush`, the bookkeeping agrees with the log after
every call. -/
theorem run_agrees_unless_flush_first (atWriteHeaderFunc atTimeToFirstByteFunc : Bool)
    (calls : List Call) (notFlushFirst : calls.head? ≠ some .flush) :
    Agrees ((FlusherDelegator.zero atWriteHeaderFunc atTimeToFirstByteFunc).run [] calls).1
      ((FlusherDelegator.zero atWriteHeaderFunc atTimeToFirstByteFunc).run [] calls).2 :=
  (Agrees.zero _ _).run calls fun flushFirst => absurd flushFirst notFlushFirst

theorem run_agrees_unless_flush_first_header_then_flush :
    ([Call.writeHeader 404, .flush].head? ≠ some .flush) ∧
      Agrees ((FlusherDelegator.zero true true).run [] [.writeHeader 404, .flush]).1
        ((FlusherDelegator.zero true true).run [] [.writeHeader 404, .flush]).2 :=
  ⟨by decide, run_agrees_unless_flush_first true true _ (by decide)⟩

/-- `Flush` as the first call: the wrapped writer receives `WriteHeader(200)`
but the delegator still has `wroteHeader` false, so a following `Write` sends a
second `WriteHeader(200)` and runs the first-header measure again. -/
theorem flush_first_repeats_header :
    (FlusherDelegator.zero true true).run [] [.flush] =
        (.zero true true, [.atWriteHeader 200, .writeHeader 200, .flush]) ∧
      ¬ Agrees (.zero true true) [.atWriteHeader 200, .writeHeader 200, .flush] ∧
      (FlusherDelegator.zero true true).run [] [.flush, .write [1] 1] =
        (⟨true, true, 200, 1, true, true⟩,
          [.atWriteHeader 200, .writeHeader 200, .flush, .atWriteHeader 200, .writeHeader 200,
            .write [1] 1, .atTimeToFirstByte 200]) :=
  ⟨rfl, fun agrees => absurd (agrees.wroteHeader.mpr (by decide)) (by decide), rfl⟩

end GatewayMt.Middleware