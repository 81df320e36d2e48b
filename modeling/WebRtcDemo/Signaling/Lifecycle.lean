import WebRtcDemo.Lib.Machine
import WebRtcDemo.Signaling.Client

/-! Starting and stopping the client, and the sockets it opens. -/

namespace WebRtcDemo.Signaling
open ByteText

/-- `reader_thread_`: none, in its loop, or returned from it without having been joined. -/
inductive ReaderThread
  | none
  | looping
  | ended
  deriving DecidableEq, Repr

structure SignalingClient where
  host_ : Bytes
  sock_fd_ : Int := -1
  reader_thread_ : ReaderThread := .none
  running_ : Bool := false
  on_error_ : Bool := false
  destroyed : Bool := false
  deriving DecidableEq, Repr

inductive ConnectError
  | socket (errno : Nat)
  | invalidHost (host : Bytes)
  | connect (errno : Nat)
  | sendRegister
  deriving DecidableEq, Repr

/-- What `on_error_` is called with. -/
def ConnectError.message (strerror : Nat → Bytes) : ConnectError → Bytes
  | .socket errno => ascii "socket: " ++ strerror errno
  | .invalidHost host => ascii "invalid host: " ++ host
  | .connect errno => ascii "connect: " ++ strerror errno
  | .sendRegister => ascii "send register failed"

/-- What the calls in `Connect` return: the descriptor or a failure, and
whether the address was one, the connection was made and the registration was
sent whole. -/
structure ConnectResults where
  socket : Option Nat
  inet_pton : Bool
  connect : Bool
  send : Bool
  errno : Nat
  deriving DecidableEq, Repr

inductive LifeAction
  | opened (fd : Nat)
  | closed (fd : Nat)
  | onError (e : ConnectError)
  | returned (ok : Bool)
  deriving DecidableEq, Repr

def SignalingClient.report (c : SignalingClient) (e : ConnectError) : List LifeAction :=
  if c.on_error_ then [.onError e] else []

/-- A failure after the socket was opened. -/
def SignalingClient.abandon (c : SignalingClient) (fd : Nat) (e : ConnectError) :
    SignalingClient × List LifeAction × Bool :=
  ({ c with sock_fd_ := -1 }, .opened fd :: c.report e ++ [.closed fd], false)

def SignalingClient.connect (c : SignalingClient) (r : ConnectResults) : SignalingClient × List LifeAction × Bool :=
  match r.socket with
  | none => ({ c with sock_fd_ := -1 }, c.report (.socket r.errno), false)
  | some fd =>
    if r.inet_pton = false then c.abandon fd (.invalidHost c.host_)
    else if r.connect = false then c.abandon fd (.connect r.errno)
    else if r.send = false then c.abandon fd .sendRegister
    else ({ c with sock_fd_ := fd }, [.opened fd], true)

/-- It is one step: what the reader does before `Start` returns counts as done after it. -/
def SignalingClient.start (c : SignalingClient) (r : ConnectResults) : SignalingClient × List LifeAction :=
  if c.running_ then (c, [.returned true])
  else
    match c.connect r with
    | (c, out, false) => (c, out ++ [.returned false])
    | (c, out, true) => ({ c with running_ := true, reader_thread_ := .looping }, out ++ [.returned true])

/-- After the shutdown of the socket the reader leaves its loop and is joined. -/
def SignalingClient.stop (c : SignalingClient) : SignalingClient × List LifeAction :=
  ({ c with running_ := false, sock_fd_ := if 0 ≤ c.sock_fd_ then -1 else c.sock_fd_, reader_thread_ := .none },
    if 0 ≤ c.sock_fd_ then [.closed c.sock_fd_.toNat] else [])

/-- Where a `recv` leaves the reader. -/
def readerAfter : RecvResult → ReaderThread
  | .data _ => .looping
  | .closed => .ended
  | .failed .other => .ended
  | .failed _ => .looping

inductive LifeEvent
  | start (r : ConnectResults)
  | stop
  | destroy
  | recv (r : RecvResult)
  | setOnError (set : Bool)

def clientStep (c : SignalingClient) (e : LifeEvent) : Option (SignalingClient × List LifeAction) :=
  if c.destroyed then none
  else
    match e with
    | .start r => some (c.start r)
    | .stop => some c.stop
    | .destroy => some ({ c.stop.1 with destroyed := true }, c.stop.2)
    | .recv r => if c.reader_thread_ = .looping then some ({ c with reader_thread_ := readerAfter r }, []) else none
    | .setOnError set => some ({ c with on_error_ := set }, [])

def client (host : Bytes) : Machine SignalingClient LifeEvent LifeAction := ⟨{ host_ := host }, clientStep⟩

/-- The sockets that are open, if none was opened or closed twice. -/
def socketStep (held : List Nat) : LifeAction → Option (List Nat)
  | .opened fd => if fd ∈ held then none else some (fd :: held)
  | .closed fd => if fd ∈ held then some (held.erase fd) else none
  | .onError _ | .returned _ => some held

def sockets (log : List LifeAction) : Option (List Nat) := log.foldlM socketStep []

def SignalingClient.owned (c : SignalingClient) : List Nat := if 0 ≤ c.sock_fd_ then [c.sock_fd_.toNat] else []

def LifeAction.isError : LifeAction → Bool
  | .onError _ => true
  | _ => false

/-- What a `Start` leaves, by what it returns. -/
def StartSound (c : SignalingClient) (e : LifeEvent) : Prop :=
  ∀ r, e = .start r → ∀ d out, clientStep c e = some (d, out) →
    (.returned false ∈ out → d.running_ = false ∧ d.sock_fd_ = -1 ∧ d.reader_thread_ = .none ∧
      (out.filter LifeAction.isError).length = if c.on_error_ then 1 else 0) ∧
    (.returned true ∈ out → d.running_ = true ∧ 0 ≤ d.sock_fd_ ∧ d.reader_thread_ = .looping)

/-- A `Start` of a running client finds the reader in its loop. -/
def ReaderPresent (c : SignalingClient) : LifeEvent → Prop
  | .start _ => c.running_ = true → c.reader_thread_ = .looping
  | _ => True

instance (c : SignalingClient) : ∀ e, Decidable (ReaderPresent c e)
  | .start _ => inferInstanceAs (Decidable (_ → _))
  | .stop | .destroy | .recv _ | .setOnError _ => isTrue trivial

/-! One call. -/

variable {c d : SignalingClient} {e : LifeEvent} {out : List LifeAction}

/-- What a `Start` can do: nothing, connect, fail before there is a socket, or
open one and close it again. -/
inductive Started (c : SignalingClient) : SignalingClient → List LifeAction → Prop
  | already (running : c.running_ = true) : Started c c [.returned true]
  | connected (fd : Nat) (idle : c.running_ = false) :
      Started c { c with sock_fd_ := fd, running_ := true, reader_thread_ := .looping } [.opened fd, .returned true]
  | noSocket (e : ConnectError) (idle : c.running_ = false) :
      Started c { c with sock_fd_ := -1 } (c.report e ++ [.returned false])
  | abandoned (fd : Nat) (e : ConnectError) (idle : c.running_ = false) :
      Started c { c with sock_fd_ := -1 } (.opened fd :: c.report e ++ [.closed fd] ++ [.returned false])

theorem start_started (c : SignalingClient) (r : ConnectResults) : Started c (c.start r).1 (c.start r).2 := by
  unfold SignalingClient.start
  by_cases running : c.running_ = true
  · rw [if_pos running]
    exact .already running
  · rw [if_neg running]
    have idle : c.running_ = false := by simpa using running
    unfold SignalingClient.connect
    cases r.socket with
    | none => exact .noSocket _ idle
    | some fd =>
      by_cases host : r.inet_pton = false
      · simp only [host, if_true]
        exact .abandoned fd _ idle
      by_cases made : r.connect = false
      · simp only [host, made, if_true]
        exact .abandoned fd _ idle
      by_cases sent : r.send = false
      · simp only [host, made, sent, if_true]
        exact .abandoned fd _ idle
      · simp only [host, made, sent]
        exact .connected fd idle

/-- What a step can do. -/
inductive ClientMove (c : SignalingClient) : LifeEvent → SignalingClient → List LifeAction → Prop
  | start {r d out} (started : Started c d out) : ClientMove c (.start r) d out
  | stop : ClientMove c .stop c.stop.1 c.stop.2
  | destroy : ClientMove c .destroy { c.stop.1 with destroyed := true } c.stop.2
  | recv (r : RecvResult) (looping : c.reader_thread_ = .looping) :
      ClientMove c (.recv r) { c with reader_thread_ := readerAfter r } []
  | setOnError (set : Bool) : ClientMove c (.setOnError set) { c with on_error_ := set } []

theorem clientStep_move (run : clientStep c e = some (d, out)) : ClientMove c e d out := by
  unfold clientStep at run
  split at run
  · cases run
  cases e with
  | start r =>
    have started := start_started c r
    rw [Option.some.inj run] at started
    exact .start started
  | stop =>
    cases run
    exact .stop
  | destroy =>
    cases run
    exact .destroy
  | recv r =>
    simp only [Option.ite_none_right_eq_some, Option.some.injEq, Prod.mk.injEq] at run
    obtain ⟨looping, rfl, rfl⟩ := run
    exact .recv r looping
  | setOnError set =>
    cases run
    exact .setOnError set

theorem clientStep_alive (run : clientStep c e = some (d, out)) : c.destroyed = false := by
  unfold clientStep at run
  split at run
  · cases run
  · rename_i alive
    simpa using alive

/-- A client that runs has a socket and a reader, and one that does not has neither. -/
inductive Consistent (c : SignalingClient) : Prop
  | idle (running : c.running_ = false) (fd : c.sock_fd_ = -1) (reader : c.reader_thread_ = .none)
  | running (running : c.running_ = true) (fd : 0 ≤ c.sock_fd_) (reader : c.reader_thread_ ≠ .none)
      (alive : c.destroyed = false)

theorem Consistent.of_idle (consistent : Consistent c) (idle : c.running_ = false) :
    c.sock_fd_ = -1 ∧ c.reader_thread_ = .none := by
  cases consistent with
  | idle _ fd reader => exact ⟨fd, reader⟩
  | running running => cases idle.symm.trans running

theorem Consistent.of_running (consistent : Consistent c) (running : c.running_ = true) :
    0 ≤ c.sock_fd_ ∧ c.destroyed = false := by
  cases consistent with
  | idle idle => cases idle.symm.trans running
  | running _ fd _ alive => exact ⟨fd, alive⟩

theorem stop_idle (consistent : Consistent c) : c.stop.1.sock_fd_ = -1 := by
  unfold SignalingClient.stop
  cases consistent with
  | idle _ fd => simp [fd]
  | running _ fd => simp [fd]

theorem Started.consistent (started : Started c d out) (consistent : Consistent c) (alive : c.destroyed = false) :
    Consistent d := by
  cases started with
  | already => exact consistent
  | connected fd => exact .running rfl (by simp) (by simp) alive
  | noSocket e idle => exact .idle idle rfl (consistent.of_idle idle).2
  | abandoned fd e idle => exact .idle idle rfl (consistent.of_idle idle).2

theorem readerAfter_ne_none (r : RecvResult) : readerAfter r ≠ .none := by
  cases r with
  | data chunk => simp [readerAfter]
  | closed => simp [readerAfter]
  | failed errno => cases errno <;> simp [readerAfter]

theorem clientStep_consistent (consistent : Consistent c) (run : clientStep c e = some (d, out)) : Consistent d := by
  have alive := clientStep_alive run
  cases clientStep_move run with
  | start started => exact started.consistent consistent alive
  | stop => exact .idle rfl (stop_idle consistent) rfl
  | destroy => exact .idle rfl (stop_idle consistent) rfl
  | recv r looping =>
    cases consistent with
    | idle _ _ reader => cases looping.symm.trans reader
    | running running fd => exact .running running fd (readerAfter_ne_none r) alive
  | setOnError set =>
    cases consistent with
    | idle running fd reader => exact .idle running fd reader
    | running running fd reader => exact .running running fd reader alive

/-! The sockets. -/

theorem socketStep_report (c : SignalingClient) (e : ConnectError) (held : List Nat) :
    (c.report e).foldlM socketStep held = some held := by
  unfold SignalingClient.report
  split <;> rfl

theorem owned_none (fd : c.sock_fd_ = -1) : c.owned = [] := by
  simp [SignalingClient.owned, fd]

theorem Started.sockets (started : Started c d out) (consistent : Consistent c) :
    out.foldlM socketStep c.owned = some d.owned := by
  cases started with
  | already => rfl
  | connected fd idle =>
    rw [owned_none (consistent.of_idle idle).1]
    simp [socketStep, SignalingClient.owned]
  | noSocket e idle =>
    rw [owned_none (consistent.of_idle idle).1, List.foldlM_append, socketStep_report]
    rfl
  | abandoned fd e idle =>
    rw [owned_none (consistent.of_idle idle).1]
    simp [List.foldlM_append, socketStep_report, socketStep, SignalingClient.owned]

theorem stop_sockets (consistent : Consistent c) : c.stop.2.foldlM socketStep c.owned = some c.stop.1.owned := by
  rw [owned_none (stop_idle consistent)]
  unfold SignalingClient.stop SignalingClient.owned
  cases consistent with
  | idle _ fd => simp [fd]
  | running _ fd => simp [fd, socketStep]

theorem ClientMove.sockets (move : ClientMove c e d out) (consistent : Consistent c) :
    out.foldlM socketStep c.owned = some d.owned := by
  cases move with
  | start started => exact started.sockets consistent
  | stop => exact stop_sockets consistent
  | destroy => exact stop_sockets consistent
  | recv r looping => rfl
  | setOnError set => rfl

theorem reach_sockets {host : Bytes} {log : List LifeAction} (reach : (client host).Reach Machine.Always c log) :
    Consistent c ∧ sockets log = some c.owned := by
  refine reach.invariant (P := fun c log => Consistent c ∧ sockets log = some c.owned) ⟨.idle rfl rfl rfl, rfl⟩ ?_
  rintro c log e d out ⟨consistent, held⟩ _ run
  refine ⟨clientStep_consistent consistent run, ?_⟩
  rw [sockets, List.foldlM_append]
  unfold sockets at held
  rw [held]
  exact (clientStep_move run).sockets consistent

/-! The results of `Start`. -/

theorem errors_report (c : SignalingClient) (e : ConnectError) :
    ((c.report e).filter LifeAction.isError).length = if c.on_error_ then 1 else 0 := by
  unfold SignalingClient.report
  split <;> rfl

/-- A `Start` that connects or fails does what it says, and one of a running
client says that the reader is in its loop. -/
theorem Started.sound (started : Started c d out) (consistent : Consistent c)
    (present : c.running_ = true → c.reader_thread_ = .looping) :
    (.returned false ∈ out → d.running_ = false ∧ d.sock_fd_ = -1 ∧ d.reader_thread_ = .none ∧
      (out.filter LifeAction.isError).length = if c.on_error_ then 1 else 0) ∧
    (.returned true ∈ out → d.running_ = true ∧ 0 ≤ d.sock_fd_ ∧ d.reader_thread_ = .looping) := by
  have reported (e : ConnectError) (ok : Bool) : .returned ok ∉ c.report e := by
    unfold SignalingClient.report
    split <;> simp
  cases started with
  | already running => exact ⟨by simp, fun _ => ⟨running, (consistent.of_running running).1, present running⟩⟩
  | connected fd idle => exact ⟨by simp, fun _ => ⟨rfl, by simp, rfl⟩⟩
  | noSocket e idle =>
    refine ⟨fun _ => ⟨idle, rfl, (consistent.of_idle idle).2, ?_⟩, by simp [reported]⟩
    rw [List.filter_append, List.length_append, errors_report]
    rfl
  | abandoned fd e idle =>
    refine ⟨fun _ => ⟨idle, rfl, (consistent.of_idle idle).2, ?_⟩, by simp [reported]⟩
    simp [List.filter_append, LifeAction.isError, errors_report]

theorem startSound_iff (consistent : Consistent c) (e : LifeEvent) : StartSound c e ↔ ReaderPresent c e := by
  cases e with
  | start r =>
    constructor
    · intro sound running
      have run : clientStep c (.start r) = some (c, [.returned true]) := by
        simp [clientStep, SignalingClient.start, (consistent.of_running running).2, running]
      exact ((sound r rfl c _ run).2 (List.mem_singleton_self _)).2.2
    · intro present _ _ d out run
      cases clientStep_move run with
      | start started => exact started.sound consistent present
  | stop | destroy | recv | setOnError =>
    refine ⟨fun _ => trivial, fun _ r other => ?_⟩
    cases other

/-- In every run the sockets opened and not closed are the one in `sock_fd_`,
and none is closed twice; and every `Start` leaves what it reports if and only
if every one of a running client finds the reader in its loop. -/
theorem lifecycle_iff (host : Bytes) (es : List LifeEvent) :
    (∀ c log, (client host).exec (client host).init es = some (c, log) → sockets log = some c.owned) ∧
      ((client host).Meets StartSound (client host).init es ↔ (client host).Meets ReaderPresent (client host).init es) := by
  refine ⟨fun c log run => (reach_sockets (.ofExec _ es run (Machine.meets_always _ es))).2, ?_⟩
  refine Machine.meets_congr (I := Consistent) (fun c e d out consistent => clientStep_consistent consistent) ?_
    (.idle rfl rfl rfl) es
  exact fun c e consistent => startSound_iff consistent e

/-- Two attempts that fail, one that connects, a second `Start`, and the end. -/
theorem lifecycle_orderly :
    ∃ c log es, (client (ascii "127.0.0.1")).exec (client (ascii "127.0.0.1")).init es = some (c, log) ∧
      es.length = 8 ∧ sockets log = some c.owned ∧
      (client (ascii "127.0.0.1")).Meets StartSound (client (ascii "127.0.0.1")).init es := by
  have orderly := lifecycle_iff (ascii "127.0.0.1")
    [.start ⟨none, true, true, true, 24⟩, .setOnError true, .start ⟨some 5, true, false, true, 111⟩,
      .start ⟨some 5, true, true, true, 0⟩, .start ⟨some 6, true, true, true, 0⟩, .recv .closed, .stop, .destroy]
  exact ⟨_, _, _, rfl, rfl, orderly.1 _ _ rfl, orderly.2.mpr (by decide)⟩

/-- The peer closes the connection, and the next `Start` returns true although
nobody reads any more. -/
theorem lifecycle_after_remote_close :
    ¬ ∀ host es, (client host).Meets StartSound (client host).init es := by
  intro always
  have sound := always [] [.start ⟨some 5, true, true, true, 0⟩, .recv .closed, .start ⟨some 6, true, true, true, 0⟩]
  have last := sound.2.2.1 _ rfl _ _ rfl
  exact absurd (last.2 (List.mem_singleton_self _)).2.2 (by decide)

end WebRtcDemo.Signaling
