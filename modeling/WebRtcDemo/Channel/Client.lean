import WebRtcDemo.Lib.Machine

/-! `QWebChannel` and `QObject` of qwebchannel.js: the page's end of the
channel. The functions of the page that the channel calls may themselves call
the channel, and may throw. `κ` are the functions, `ν` the values in messages. -/

namespace WebRtcDemo.Channel

/-- The messages that the client sends. -/
inductive Outbound (ν : Type)
  | init (id : Nat)
  | idle
  | debug (data : ν)
  | invokeMethod (id : Nat) (object : String) (method : String ⊕ Nat) (args : List ν)
  | connectToSignal (object : String) (signal : Nat)
  | disconnectFromSignal (object : String) (signal : Nat)
  | setProperty (object : String) (property : Nat) (value : ν)
  deriving DecidableEq, Repr

/-- One entry of the data of a property update. Keys come as `Object.keys` gives them. -/
structure Update (ν : Type) where
  object : String
  signals : List (Nat × List ν)
  properties : List (Nat × ν)
  deriving DecidableEq, Repr

/-- The messages that `transport.onmessage` receives. A member that is missing is `none`. -/
inductive Inbound (ν : Type)
  | signal (object : String) (signal : Nat) (args : List ν)
  | response (id : Option Nat) (data : Option ν)
  | propertyUpdate (data : List (Update ν))
  | other
  deriving DecidableEq, Repr

/-- The notify signal of a property; the name is sent as 1 when it follows from
the name of the property. -/
inductive NotifyData
  | optimized (index : Nat)
  | named (name : String) (index : Nat)
  deriving DecidableEq, Repr

structure PropertyData (ν : Type) where
  index : Nat
  name : String
  notify : Option NotifyData
  value : Option ν
  deriving DecidableEq, Repr

/-- How an object is described in the answer to `init`. -/
structure ObjectData (ν : Type) where
  methods : List (String × Nat)
  properties : List (PropertyData ν)
  signals : List (String × Nat)
  deriving DecidableEq, Repr

/-- `object[signalName]`, with what its `connect` and `disconnect` have captured. -/
structure Handle where
  index : Nat
  isPropertyNotifySignal : Bool
  deriving DecidableEq, Repr

/-- `QObject`. The lists of callbacks are arrays that are shared by reference. -/
structure QObject (ν : Type) where
  handles : String → Option Handle
  methods : String → Option (String ⊕ Nat)
  properties : String → Option Nat
  objectSignals : Nat → Option Nat
  propertyCache : Nat → Option ν

/-- What `execCallbacks` keeps for a message: the function given to `exec`. -/
inductive Pending (κ : Type)
  | init (initCallback : Option κ)
  | callback (f : κ)
  | promise
  deriving DecidableEq, Repr

/-- What is left to do once the function that runs has returned. -/
inductive Frame (ν : Type)
  /-- `connections.forEach`, with the place it has come to and the length it began with -/
  | forEach (array : Nat) (next length : Nat) (args : List ν)
  /-- the rest of the signals of `propertyUpdate` -/
  | signals (object : String) (rest : List (Nat × List ν))
  /-- the rest of `message.data.forEach` -/
  | updates (rest : List (Update ν))
  | idle
  /-- `delete channel.execCallbacks[id]` -/
  | forget (id : Nat)
  deriving DecidableEq, Repr

structure State (κ ν : Type) where
  constructed : Bool
  execId : Nat
  execCallbacks : Nat → Option (Pending κ)
  objects : String → Option (QObject ν)
  arrays : Nat → List κ
  nextArray : Nat
  stack : List (Frame ν)
  /-- a function of the page runs that the channel has called -/
  running : Bool

/-- What can be observed. `registered` is the entry made in `execCallbacks`,
`answered` the call of an entry; `emitting` lists the callbacks that are
called in an emission that begins, and `emitted` ends it. `failed` are the
entries whose function threw. -/
inductive Action (κ ν : Type)
  | sent (m : Outbound ν)
  | registered (id : Nat) (p : Pending κ)
  | answered (id : Nat) (p : Pending κ) (data : Option ν)
  | created (object : String)
  | initialized (f : κ)
  | connected (object : String) (signal : Nat) (f : κ)
  | disconnected (object : String) (signal : Nat) (f : κ)
  | called (f : κ) (args : List ν)
  | resolved (data : ν)
  | rejected
  | typeError
  | emitting (object : String) (signal : Nat) (callbacks : List κ) (args : List ν)
  | emitted
  | failed (ids : List Nat)
  deriving DecidableEq, Repr

/-- What the page and the transport do. The calls of the page are those of the
channel's own functions; `finish` and `fail` end a function of the page. -/
inductive Event (κ ν : Type)
  | construct (initCallback : Option κ)
  | receive (m : Inbound ν)
  | proceed
  | finish
  | fail
  | connect (object signal : String) (f : κ)
  | disconnect (object signal : String) (f : κ)
  | invoke (object method : String) (args : List ν) (callback : Option κ)
  | set (object property : String) (value : Option ν)
  | debug (data : ν)
  deriving DecidableEq, Repr

variable {κ ν : Type}

def initial : State κ ν where
  constructed := false
  execId := 0
  execCallbacks := fun _ => none
  objects := fun _ => none
  arrays := fun _ => []
  nextArray := 0
  stack := []
  running := false

/-- `channel.execId++`: beyond this number one more is the same double. -/
def nextId (id : Nat) : Nat := if id < 2 ^ 53 then id + 1 else id

/-- `exec` with a callback. -/
def exec (s : State κ ν) (data : Nat → Outbound ν) (p : Pending κ) : State κ ν × List (Action κ ν) :=
  ({ s with execId := nextId s.execId, execCallbacks := Function.update s.execCallbacks s.execId (some p) },
    [.registered s.execId p, .sent (data s.execId)])

/-- `addSignal`: a later one of the same name takes its place. -/
def addSignal (o : QObject ν) (name : String) (index : Nat) (isPropertyNotifySignal : Bool) : QObject ν :=
  { o with handles := Function.update o.handles name (some ⟨index, isPropertyNotifySignal⟩) }

/-- Fully specified methods are invoked by id, others by name. -/
def addMethod (o : QObject ν) (methodData : String × Nat) : QObject ν :=
  let (name, index) := methodData
  let invoked : String ⊕ Nat := if name.toList.getLast? = some ')' then .inr index else .inl name
  { o with methods := Function.update o.methods name (some invoked) }

def bindGetterSetter (o : QObject ν) (info : PropertyData ν) : QObject ν :=
  let o := { o with propertyCache := Function.update o.propertyCache info.index info.value }
  let o := match info.notify with
    | none => o
    | some (.optimized index) => addSignal o (info.name ++ "Changed") index true
    | some (.named name index) => addSignal o name index true
  { o with properties := Function.update o.properties info.name (some info.index) }

/-- `new QObject` -/
def newQObject (data : ObjectData ν) : QObject ν :=
  let o : QObject ν := ⟨fun _ => none, fun _ => none, fun _ => none, fun _ => none, fun _ => none⟩
  let o := data.methods.foldl addMethod o
  let o := data.properties.foldl bindGetterSetter o
  data.signals.foldl (fun o signal => addSignal o signal.1 signal.2 false) o

def addObject (objects : String → Option (QObject ν)) (entry : String × ObjectData ν) : String → Option (QObject ν) :=
  Function.update objects entry.1 (some (newQObject entry.2))

/-- The names under which `connect` sends nothing. -/
def isDestroyed (signalName : String) : Bool :=
  signalName == "destroyed" || signalName == "destroyed()" || signalName == "destroyed(QObject*)"

def setObject (s : State κ ν) (name : String) (o : QObject ν) : State κ ν :=
  { s with objects := Function.update s.objects name (some o) }

theorem setObject_objects (s : State κ ν) (name : String) (o : QObject ν) :
    (setObject s name o).objects = Function.update s.objects name (some o) := rfl

/-- The array of a signal's callbacks, a new empty one if there is none. -/
def callbacksOf (s : State κ ν) (o : QObject ν) (index : Nat) : Nat × State κ ν :=
  match o.objectSignals index with
  | some array => (array, s)
  | none => (s.nextArray, { s with arrays := Function.update s.arrays s.nextArray [], nextArray := s.nextArray + 1 })

/-- `connect`: the callback is pushed onto the array itself. -/
def connect (s : State κ ν) (name : String) (o : QObject ν) (signalName : String) (h : Handle) (f : κ) :
    State κ ν × List (Action κ ν) :=
  let (array, s) := callbacksOf s o h.index
  let callbacks := s.arrays array ++ [f]
  let s := { s with arrays := Function.update s.arrays array callbacks }
  let s := setObject s name { o with objectSignals := Function.update o.objectSignals h.index (some array) }
  (s, .connected name h.index f ::
    if h.isPropertyNotifySignal = true ∨ isDestroyed signalName = true then []
    else if callbacks.length = 1 then [.sent (.connectToSignal name h.index)] else [])

theorem connect_execId (s : State κ ν) (name : String) (o : QObject ν) (signalName : String) (h : Handle) (f : κ) :
    (connect s name o signalName h f).1.execId = s.execId := by
  unfold connect callbacksOf
  cases o.objectSignals h.index <;> rfl

theorem connect_execCallbacks (s : State κ ν) (name : String) (o : QObject ν) (signalName : String) (h : Handle) (f : κ) :
    (connect s name o signalName h f).1.execCallbacks = s.execCallbacks := by
  unfold connect callbacksOf
  cases o.objectSignals h.index <;> rfl

theorem connect_stack (s : State κ ν) (name : String) (o : QObject ν) (signalName : String) (h : Handle) (f : κ) :
    (connect s name o signalName h f).1.stack = s.stack := by
  unfold connect callbacksOf
  cases o.objectSignals h.index <;> rfl

theorem mem_connect {s : State κ ν} {name : String} {o : QObject ν} {signalName : String} {h : Handle} {f : κ}
    {a : Action κ ν} (member : a ∈ (connect s name o signalName h f).2) :
    a = .connected name h.index f ∨ a = .sent (.connectToSignal name h.index) := by
  unfold connect at member
  refine (List.mem_cons.mp member).imp_right fun inside => ?_
  split at inside
  · cases inside
  · split at inside
    · exact List.mem_singleton.mp inside
    · cases inside

/-- The callbacks that are connected to a signal. -/
def connected (s : State κ ν) (o : QObject ν) (index : Nat) : List κ := (o.objectSignals index).elim [] s.arrays

/-- `disconnect`: the rest is a new array. -/
def disconnect [DecidableEq κ] (s : State κ ν) (name : String) (o : QObject ν) (h : Handle) (f : κ) :
    State κ ν × List (Action κ ν) :=
  let callbacks := (connected s o h.index).filter (· ≠ f)
  let array := s.nextArray
  let s := { s with arrays := Function.update s.arrays array callbacks, nextArray := array + 1 }
  let s := setObject s name { o with objectSignals := Function.update o.objectSignals h.index (some array) }
  (s, .disconnected name h.index f ::
    if h.isPropertyNotifySignal = false ∧ callbacks.length = 0 then [.sent (.disconnectFromSignal name h.index)] else [])

theorem mem_disconnect [DecidableEq κ] {s : State κ ν} {name : String} {o : QObject ν} {h : Handle} {f : κ} {a : Action κ ν}
    (member : a ∈ (disconnect s name o h f).2) :
    a = .disconnected name h.index f ∨ a = .sent (.disconnectFromSignal name h.index) := by
  unfold disconnect at member
  refine (List.mem_cons.mp member).imp_right fun inside => ?_
  split at inside
  · exact List.mem_singleton.mp inside
  · cases inside

/-- A function of the page is called. -/
def call (s : State κ ν) (stack : List (Frame ν)) : State κ ν := { s with stack := stack, running := true }

/-- `invokeSignalCallbacks`, with what is left to do after it. -/
def invokeSignalCallbacks (s : State κ ν) (name : String) (o : QObject ν) (index : Nat) (args : List ν)
    (rest : List (Frame ν)) : State κ ν × List (Action κ ν) :=
  match o.objectSignals index with
  | none => ({ s with stack := rest }, [])
  | some array =>
    ({ s with stack := .forEach array 0 (s.arrays array).length args :: rest },
      [.emitting name index (s.arrays array) args])

/-- The function that `exec` was given for `init`; `objects` are the objects
that its data describes, if it describes any. -/
def answerInit (s : State κ ν) (objects : Option (List (String × ObjectData ν))) (initCallback : Option κ) (id : Nat) :
    State κ ν × List (Action κ ν) :=
  match objects with
  | none => (s, [.typeError, .failed [id]])
  | some entries =>
    let s := { s with objects := entries.foldl addObject s.objects }
    let created := entries.map fun entry => .created entry.1
    match initCallback with
    | none => ({ s with stack := [.idle, .forget id] }, created)
    | some f => (call s [.idle, .forget id], created ++ [.initialized f])

/-- The function that a method gave to `exec`. -/
def reply (s : State κ ν) (p : Pending κ) (data : Option ν) (id : Nat) : State κ ν × List (Action κ ν) :=
  match p, data with
  | .callback f, some v => (call s [.forget id], [.called f [v]])
  | .callback _, none => ({ s with stack := [.forget id] }, [])
  | _, some v => ({ s with stack := [.forget id] }, [.resolved v])
  | _, none => ({ s with stack := [.forget id] }, [.rejected])

/-- `handleResponse` -/
def handleResponse (objects : ν → Option (List (String × ObjectData ν))) (s : State κ ν) (id : Nat) (data : Option ν) :
    State κ ν × List (Action κ ν) :=
  match s.execCallbacks id with
  | none => (s, [.typeError])
  | some (.init initCallback) =>
    let (t, out) := answerInit s (data.bind objects) initCallback id
    (t, .answered id (.init initCallback) data :: out)
  | some p =>
    let (t, out) := reply s p data id
    (t, .answered id p data :: out)

/-- `transport.onmessage` -/
def onmessage (objects : ν → Option (List (String × ObjectData ν))) (s : State κ ν) :
    Inbound ν → State κ ν × List (Action κ ν)
  | .signal object signal args =>
    match s.objects object with
    | none => (s, [])
    | some o => invokeSignalCallbacks s object o signal args []
  | .response none _ => (s, [])
  | .response (some id) data => handleResponse objects s id data
  | .propertyUpdate data => ({ s with stack := [.updates data, .idle] }, [])
  | .other => (s, [])

def cacheProperty (cache : Nat → Option ν) (property : Nat × ν) : Nat → Option ν :=
  Function.update cache property.1 (some property.2)

/-- One step of what is left to do. -/
def proceed (s : State κ ν) : Frame ν → List (Frame ν) → State κ ν × List (Action κ ν)
  | .forEach array next length args, rest =>
    if next < length then
      match (s.arrays array)[next]? with
      | some f => (call s (.forEach array (next + 1) length args :: rest), [.called f args])
      | none => ({ s with stack := .forEach array (next + 1) length args :: rest }, [])
    else ({ s with stack := rest }, [.emitted])
  | .signals _ [], rest => ({ s with stack := rest }, [])
  | .signals object ((signal, args) :: more), rest =>
    match s.objects object with
    | none => ({ s with stack := .signals object more :: rest }, [])
    | some o => invokeSignalCallbacks s object o signal args (.signals object more :: rest)
  | .updates [], rest => ({ s with stack := rest }, [])
  | .updates (u :: more), rest =>
    match s.objects u.object with
    | none => ({ s with stack := .updates more :: rest }, [])
    | some o =>
      let cache := u.properties.foldl cacheProperty o.propertyCache
      ({ setObject s u.object { o with propertyCache := cache } with
        stack := .signals u.object u.signals :: .updates more :: rest }, [])
  | .idle, rest => ({ s with stack := rest }, [.sent .idle])
  | .forget id, rest =>
    ({ s with stack := rest, execCallbacks := Function.update s.execCallbacks id none }, [])

/-- The entries of `execCallbacks` whose function is being called. -/
def calledIds (stack : List (Frame ν)) : List Nat :=
  stack.filterMap fun frame => match frame with
    | .forget id => some id
    | _ => none

/-- The page can call the channel from a function that the channel called, or
from a task of its own. -/
def free (s : State κ ν) : Bool := s.constructed && (s.running || s.stack.isEmpty)

def step [DecidableEq κ] (objects : ν → Option (List (String × ObjectData ν))) (s : State κ ν) :
    Event κ ν → Option (State κ ν × List (Action κ ν))
  | .construct initCallback =>
    if s.constructed then none else some (exec { s with constructed := true } .init (.init initCallback))
  | .receive m => if s.constructed && !s.running && s.stack.isEmpty then some (onmessage objects s m) else none
  | .proceed =>
    match s.stack with
    | [] => none
    | frame :: rest => if s.running then none else some (proceed s frame rest)
  | .finish => if s.running then some ({ s with running := false }, []) else none
  | .fail => if s.running then some ({ s with running := false, stack := [] }, [.failed (calledIds s.stack)]) else none
  | .connect object signal f =>
    if free s then
      (s.objects object).bind fun o => (o.handles signal).map fun h => connect s object o signal h f
    else none
  | .disconnect object signal f =>
    if free s then
      (s.objects object).bind fun o => (o.handles signal).map fun h => disconnect s object o h f
    else none
  | .invoke object method args callback =>
    if free s then
      (s.objects object).bind fun o => (o.methods method).map fun invoked =>
        exec s (fun id => .invokeMethod id object invoked args) (callback.elim .promise .callback)
    else none
  | .set object property value =>
    if free s then
      (s.objects object).bind fun o => (o.properties property).map fun index =>
        match value with
        | none => (s, [])
        | some v =>
          (setObject s object { o with propertyCache := Function.update o.propertyCache index (some v) },
            [.sent (.setProperty object index v)])
    else none
  | .debug data => if free s then some (s, [.sent (.debug data)]) else none

def client [DecidableEq κ] (objects : ν → Option (List (String × ObjectData ν))) : Machine (State κ ν) (Event κ ν) (Action κ ν) :=
  ⟨initial, step objects⟩

/-- A host with one object. -/
def receiverData : ObjectData Nat := ⟨[("greet", 3)], [], [("answer", 4)]⟩

def oneObject (_ : Nat) : Option (List (String × ObjectData Nat)) := some [("receiver", receiverData)]

variable [DecidableEq κ] {objects : ν → Option (List (String × ObjectData ν))}

/-- The frames of a property update. -/
def Frame.Updates : Frame ν → Prop
  | .signals _ _ => True
  | .updates _ => True
  | _ => False

/-- Everything a step of the client can be. -/
inductive ClientMove (objects : ν → Option (List (String × ObjectData ν))) (s : State κ ν) :
    Event κ ν → State κ ν → List (Action κ ν) → Prop
  | constructs (initCallback) (fresh : s.constructed = false) :
    ClientMove objects s (.construct initCallback)
      (exec { s with constructed := true } .init (.init initCallback)).1
      (exec { s with constructed := true } .init (.init initCallback)).2
  | ignores {e} : ClientMove objects s e s []
  | unknown (id data) (entry : s.execCallbacks id = none) :
    ClientMove objects s (.receive (.response (some id) data)) s [.typeError]
  | breaks {id initCallback} (data) (empty : s.stack = []) (entry : s.execCallbacks id = some (.init initCallback)) :
    ClientMove objects s (.receive (.response (some id) data)) s
      [.answered id (.init initCallback) data, .typeError, .failed [id]]
  | initializes {id initCallback} (data) {entries} (idle : s.running = false) (empty : s.stack = [])
    (entry : s.execCallbacks id = some (.init initCallback)) (described : data.bind objects = some entries) :
    ClientMove objects s (.receive (.response (some id) data))
      { s with
        objects := entries.foldl addObject s.objects
        stack := [.idle, .forget id]
        running := initCallback.isSome }
      (.answered id (.init initCallback) data ::
        ((entries.map fun entry => .created entry.1) ++ initCallback.toList.map .initialized))
  | replies {id f} (v) (empty : s.stack = []) (entry : s.execCallbacks id = some (.callback f)) :
    ClientMove objects s (.receive (.response (some id) (some v))) (call s [.forget id])
      [.answered id (.callback f) (some v), .called f [v]]
  | settles {id p} (data) {out} (empty : s.stack = []) (entry : s.execCallbacks id = some p)
    (promised : out = [] ∨ (∃ v, out = [.resolved v]) ∨ out = [.rejected]) :
    ClientMove objects s (.receive (.response (some id) data)) { s with stack := [.forget id] } (.answered id p data :: out)
  | updates (data) (empty : s.stack = []) :
    ClientMove objects s (.receive (.propertyUpdate data)) { s with stack := [.updates data, .idle] } []
  | emits {e object o signal array rest} (args) (found : s.objects object = some o)
    (here : o.objectSignals signal = some array)
    (under : s.stack = [] ∧ rest = [] ∨ ∃ more tail, s.stack = .signals object ((signal, args) :: more) :: tail ∧
      rest = .signals object more :: tail) :
    ClientMove objects s e { s with stack := .forEach array 0 (s.arrays array).length args :: rest }
      [.emitting object signal (s.arrays array) args]
  | calls {array next length args rest f} (here : s.stack = .forEach array next length args :: rest)
    (more : next < length) (listed : (s.arrays array)[next]? = some f) :
    ClientMove objects s .proceed (call s (.forEach array (next + 1) length args :: rest)) [.called f args]
  | skips {array next length args rest} (here : s.stack = .forEach array next length args :: rest)
    (more : next < length) (missing : (s.arrays array)[next]? = none) :
    ClientMove objects s .proceed { s with stack := .forEach array (next + 1) length args :: rest } []
  | ends {array next length args rest} (here : s.stack = .forEach array next length args :: rest)
    (done : ¬next < length) : ClientMove objects s .proceed { s with stack := rest } [.emitted]
  | moves {frame rest later} (here : s.stack = frame :: rest) (update : frame.Updates)
    (next : later = rest ∨ ∃ frame : Frame ν, frame.Updates ∧ later = frame :: rest) :
    ClientMove objects s .proceed { s with stack := later } []
  | caches {u : Update ν} {more rest o} (here : s.stack = .updates (u :: more) :: rest) (found : s.objects u.object = some o) :
    ClientMove objects s .proceed
      { setObject s u.object { o with propertyCache := u.properties.foldl cacheProperty o.propertyCache } with
        stack := .signals u.object u.signals :: .updates more :: rest } []
  | idles {rest} (here : s.stack = .idle :: rest) : ClientMove objects s .proceed { s with stack := rest } [.sent .idle]
  | forgets {id rest} (here : s.stack = .forget id :: rest) :
    ClientMove objects s .proceed
      { s with
        stack := rest
        execCallbacks := Function.update s.execCallbacks id none } []
  | finishes (busy : s.running = true) : ClientMove objects s .finish { s with running := false } []
  | fails (busy : s.running = true) :
    ClientMove objects s .fail { s with running := false, stack := [] } [.failed (calledIds s.stack)]
  | connects {object signal o h} (f) (found : s.objects object = some o) (handle : o.handles signal = some h) :
    ClientMove objects s (.connect object signal f) (connect s object o signal h f).1 (connect s object o signal h f).2
  | disconnects {object signal o h} (f) (found : s.objects object = some o) (handle : o.handles signal = some h) :
    ClientMove objects s (.disconnect object signal f) (disconnect s object o h f).1 (disconnect s object o h f).2
  | invokes {object method o invoked} (args callback) (found : s.objects object = some o)
    (listed : o.methods method = some invoked) :
    ClientMove objects s (.invoke object method args callback)
      (exec s (fun id => .invokeMethod id object invoked args) (callback.elim .promise .callback)).1
      (exec s (fun id => .invokeMethod id object invoked args) (callback.elim .promise .callback)).2
  | sets {object property o index} (v) (found : s.objects object = some o) (listed : o.properties property = some index) :
    ClientMove objects s (.set object property (some v))
      (setObject s object { o with propertyCache := Function.update o.propertyCache index (some v) })
      [.sent (.setProperty object index v)]
  | debugs (data) : ClientMove objects s (.debug data) s [.sent (.debug data)]

theorem clientMove_invokeSignalCallbacks {s : State κ ν} {e : Event κ ν} {object : String} {o : QObject ν} {signal : Nat}
    {args : List ν} {rest : List (Frame ν)} (found : s.objects object = some o)
    (under : s.stack = [] ∧ rest = [] ∨ ∃ more tail, s.stack = .signals object ((signal, args) :: more) :: tail ∧
      rest = .signals object more :: tail)
    (quiet : o.objectSignals signal = none → ClientMove objects s e { s with stack := rest } []) :
    ClientMove objects s e (invokeSignalCallbacks s object o signal args rest).1
      (invokeSignalCallbacks s object o signal args rest).2 := by
  unfold invokeSignalCallbacks
  split
  · rename_i missing
    exact quiet missing
  · rename_i array here
    exact .emits args found here under

theorem clientMove_handleResponse {s : State κ ν} (idle : s.running = false) (empty : s.stack = []) (id : Nat)
    (data : Option ν) :
    ClientMove objects s (.receive (.response (some id) data)) (handleResponse objects s id data).1
      (handleResponse objects s id data).2 := by
  unfold handleResponse
  split
  · rename_i missing
    exact .unknown id data missing
  · rename_i initCallback entry
    unfold answerInit
    cases described : data.bind objects with
    | none => exact .breaks data empty entry
    | some entries =>
      cases initCallback with
      | none =>
        have move : ClientMove objects s _ _ _ := .initializes data idle empty entry described
        simpa only [idle, Option.isSome_none, Option.toList_none, List.map_nil, List.append_nil] using move
      | some f => exact .initializes data idle empty entry described
  · rename_i p replies entry
    cases p with
    | init initCallback => exact (replies initCallback rfl).elim
    | callback f =>
      cases data with
      | none => exact .settles none empty entry (.inl rfl)
      | some v => exact .replies v empty entry
    | promise =>
      cases data with
      | none => exact .settles none empty entry (.inr (.inr rfl))
      | some v => exact .settles (some v) empty entry (.inr (.inl ⟨v, rfl⟩))

theorem clientMove_onmessage {s : State κ ν} (idle : s.running = false) (empty : s.stack = []) (m : Inbound ν) :
    ClientMove objects s (.receive m) (onmessage objects s m).1 (onmessage objects s m).2 := by
  cases m with
  | signal object signal args =>
    simp only [onmessage]
    split
    · exact .ignores
    · rename_i o found
      refine clientMove_invokeSignalCallbacks found (.inl ⟨empty, rfl⟩) fun _ => ?_
      rw [← empty]
      exact .ignores
  | response id data =>
    cases id with
    | none => exact .ignores
    | some id => exact clientMove_handleResponse idle empty id data
  | propertyUpdate data => exact .updates data empty
  | other => exact .ignores

theorem clientMove_proceed {s : State κ ν} {frame : Frame ν} {rest : List (Frame ν)} (here : s.stack = frame :: rest) :
    ClientMove objects s .proceed (proceed s frame rest).1 (proceed s frame rest).2 := by
  cases frame with
  | forEach array next length args =>
    simp only [proceed]
    split
    · rename_i more
      split
      · rename_i f listed
        exact .calls here more listed
      · rename_i missing
        exact .skips here more missing
    · rename_i done
      exact .ends here done
  | signals object rest' =>
    cases rest' with
    | nil => exact .moves here trivial (.inl rfl)
    | cons first more =>
      simp only [proceed]
      split
      · exact .moves here trivial (.inr ⟨.signals object more, trivial, rfl⟩)
      · rename_i o found
        exact clientMove_invokeSignalCallbacks found (.inr ⟨more, rest, here, rfl⟩)
          fun _ => .moves here trivial (.inr ⟨.signals object more, trivial, rfl⟩)
  | updates data =>
    cases data with
    | nil => exact .moves here trivial (.inl rfl)
    | cons u more =>
      simp only [proceed]
      split
      · exact .moves here trivial (.inr ⟨.updates more, trivial, rfl⟩)
      · rename_i o found
        exact .caches here found
  | idle => exact .idles here
  | forget id => exact .forgets here

theorem clientMove_of_step {s t : State κ ν} {e : Event κ ν} {out : List (Action κ ν)}
    (run : step objects s e = some (t, out)) : ClientMove objects s e t out := by
  have made {x : State κ ν × List (Action κ ν)} (same : x = (t, out)) : t = x.1 ∧ out = x.2 := by
    rw [same]
    exact ⟨rfl, rfl⟩
  cases e with
  | construct initCallback =>
    simp only [step] at run
    split at run
    · cases run
    · rename_i fresh
      obtain ⟨rfl, rfl⟩ := made (Option.some.inj run)
      exact .constructs initCallback (by simpa using fresh)
  | receive m =>
    simp only [step] at run
    split at run
    · rename_i ready
      simp only [Bool.and_eq_true, Bool.not_eq_true', List.isEmpty_iff] at ready
      obtain ⟨rfl, rfl⟩ := made (Option.some.inj run)
      exact clientMove_onmessage ready.1.2 ready.2 m
    · cases run
  | proceed =>
    simp only [step] at run
    split at run
    · cases run
    · rename_i frame rest here
      split at run
      · cases run
      · obtain ⟨rfl, rfl⟩ := made (Option.some.inj run)
        exact clientMove_proceed here
  | finish =>
    simp only [step] at run
    split at run
    · rename_i busy
      cases run
      exact .finishes busy
    · cases run
  | fail =>
    simp only [step] at run
    split at run
    · rename_i busy
      cases run
      exact .fails busy
    · cases run
  | connect object signal f =>
    simp only [step] at run
    split at run
    · obtain ⟨o, found, later⟩ := Option.bind_eq_some_iff.mp run
      obtain ⟨h, handle, same⟩ := Option.map_eq_some_iff.mp later
      obtain ⟨rfl, rfl⟩ := made same
      exact .connects f found handle
    · cases run
  | disconnect object signal f =>
    simp only [step] at run
    split at run
    · obtain ⟨o, found, later⟩ := Option.bind_eq_some_iff.mp run
      obtain ⟨h, handle, same⟩ := Option.map_eq_some_iff.mp later
      obtain ⟨rfl, rfl⟩ := made same
      exact .disconnects f found handle
    · cases run
  | invoke object method args callback =>
    simp only [step] at run
    split at run
    · obtain ⟨o, found, later⟩ := Option.bind_eq_some_iff.mp run
      obtain ⟨invoked, listed, same⟩ := Option.map_eq_some_iff.mp later
      obtain ⟨rfl, rfl⟩ := made same
      exact .invokes args callback found listed
    · cases run
  | set object property value =>
    simp only [step] at run
    split at run
    · obtain ⟨o, found, later⟩ := Option.bind_eq_some_iff.mp run
      obtain ⟨index, listed, same⟩ := Option.map_eq_some_iff.mp later
      cases value with
      | none =>
        cases same
        exact .ignores
      | some v =>
        cases same
        exact .sets v found listed
    · cases run
  | debug data =>
    simp only [step] at run
    split at run
    · cases run
      exact .debugs data
    · cases run

end WebRtcDemo.Channel
