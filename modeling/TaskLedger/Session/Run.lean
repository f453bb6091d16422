/-
Running a session: each step is one operation on the ledger or on its
executors, with names resolved to numbers before and an answer made up
after. A step that stops midway answers its fault, and the session goes
on with what that step left.

A sweep of the registry tells its warnings in the order of their written
form, whatever the order in which it visited the tasks.
-/
import TaskLedger.Session.View

namespace TaskLedger

/-- A session: the dispatch with its ledger, and the names given so far. -/
structure Session where
  dispatch : Dispatch := {}
  /-- Executors are pooled unless a step says otherwise. -/
  usesPool : Bool := true
  /-- The sink as it was asked for. -/
  spec : SinkSpec := .memory
  tasks : List (Handle × TaskId) := []
  entries : List (Handle × Entry) := []
  workers : List (Handle × WorkerId) := []
  executors : List (Handle × ExecutorId × Session.ExecutorKind) := []
  /-- How many of the actions that ran have been answered. -/
  told : Nat := 0

/-- What a session is set up with. -/
structure Session.Setup where
  sink : SinkSpec := .memory
  files : Files.Tree := {}
  /-- Where the clock starts, as milliseconds and nanoseconds. -/
  start : Option (Int × Int) := none
  usesPool : Bool := true

namespace Session

/-- The ledger of a session. -/
def ledger (s : Session) : Ledger := s.dispatch.ledger

/-- Begins a session. -/
def begin (setup : Setup) : Except Halt Session := do
  let now ← match setup.start with
    | none => .ok Instant.epoch
    | some (ms, ns) => (Instant.ofParts ms ns).mapError .fault
  match ({ now, tree := setup.files } : Ledger).attachSink setup.sink with
  | (_, .error e) => .error (.error e)
  | (l, .ok ()) =>
    .ok { dispatch := { ledger := l }, usesPool := setup.usesPool, spec := setup.sink }

-- ================================================================ parts

/-- Another ledger in place of the session's. -/
def withLedger (l : Ledger) (s : Session) : Session :=
  { s with dispatch := { s.dispatch with ledger := l } }

/-- Another dispatch in place of the session's. -/
def withDispatch (d : Dispatch) (s : Session) : Session := { s with dispatch := d }

/-- The entry a step addresses. -/
def entryAt? (s : Session) : Target → Option Entry
  | .record name => (s.tasks.lookup name).map .task
  | .entry name => s.entries.lookup name

/-- The target after a step. -/
def after (s : Session) (target : Target) (wrote : Option Bool) : Answer :=
  match target with
  | .record name =>
    match s.tasks.lookup name >>= fun t => s.ledger.tasks[t]? with
    | some t => .task (viewTask s.ledger t) wrote
    | none => .unknown
  | .entry name =>
    match s.entries.lookup name with
    | some e => .ofEntry (viewEntry s.ledger e) wrote
    | none => .unknown

/-- Carries out an operation and makes up an answer. -/
def perform (op : LedgerOp) (reply : Session → LedgerAnswer → Session × Answer) (s : Session) :
    Session × Answer :=
  match op.apply s.ledger with
  | (l, .error f) => (s.withLedger l, .fault f)
  | (l, .ok a) => reply (s.withLedger l) a

/-- Carries out an operation on a target and answers with the target. -/
def onTarget (target : Target) (op : Entry → LedgerOp) (s : Session) : Session × Answer :=
  match s.entryAt? target with
  | none => (s, .unknown)
  | some e => s.perform (op e) fun s a =>
    (s, s.after target (match a with
      | .yes b => some b
      | _ => none))

/-- Does something with a worker. -/
def withWorker (name : Handle) (f : WorkerId → Session → Session × Answer) (s : Session) :
    Session × Answer :=
  match s.workers.lookup name with
  | some w => f w s
  | none => (s, .unknown)

/-- A worker as it is now. -/
def viewWorker (w : WorkerId) (s : Session) : Answer :=
  match s.ledger.workers[w]? with
  | some k => .worker k
  | none => .unknown

/-- Names a worker and answers with it. -/
def nameWorker (name : Handle) (s : Session) (a : LedgerAnswer) : Session × Answer :=
  match a with
  | .worker w =>
    let s := { s with workers := (name, w) :: s.workers }
    (s, s.viewWorker w)
  | _ => (s, .unknown)

/-- Names a task and answers with its number and start. -/
def nameTask (name : Handle) (s : Session) (a : LedgerAnswer) : Session × Answer :=
  match a with
  | .task t =>
    let s := { s with tasks := (name, t) :: s.tasks }
    (s, match s.ledger.tasks[t]? with
      | some k => .started k.id k.start
      | none => .unknown)
  | _ => (s, .unknown)

/-- What the sink holds. -/
def held (asLines : Bool) (s : Session) : Answer :=
  match contents s.ledger asLines with
  | .ok cs => .contents cs
  | .error e => .error e

/-- What the sink holds, line by line if it is a file. -/
def lines (s : Session) : List Shown :=
  match contents s.ledger true with
  | .ok cs => cs
  | .error _ => []

/-- Puts warnings in the order of their written form. -/
def inOrder (ws : List Warning) : List Warning :=
  ws.mergeSort fun a b => decide (String.ofList a.write ≤ String.ofList b.write)

/-- A sweep, with its warnings put in order. -/
def sweep (op : LedgerOp) (reply : Session → LedgerAnswer → Session × Answer) (s : Session) :
    Session × Answer :=
  let before := s.ledger.warnings.length
  s.perform op fun s a =>
    let l := s.ledger
    let ws := l.warnings.take before ++ inOrder (l.warnings.drop before)
    reply (s.withLedger { l with warnings := ws }) a

/-- The actions that ran and have not been answered. -/
def untold (s : Session) : Session × List String :=
  ({ s with told := s.dispatch.ran.length }, s.dispatch.ran.drop s.told)

/-- Does something with an executor. -/
def withExecutor (name : Handle) (f : ExecutorId → ExecutorKind → Session → Session × Answer)
    (s : Session) : Session × Answer :=
  match s.executors.lookup name with
  | some (x, kind) => f x kind s
  | none => (s, .unknown)

/-- The executor a step asks for. -/
def executorFor (kind : ExecutorKind) (owner : String) (entry : Option Handle) (s : Session) :
    Option Executor :=
  let pooled (e : Entry) : Executor := .pooled { owner, entry := e }
  match kind, entry with
  | .direct, _ => some (.direct owner)
  | .pooled, some name => (s.entries.lookup name).map pooled
  | .pooled, none => some (pooled (s.ledger.entryOf owner))
  | .chosen, _ =>
    some (if s.usesPool then pooled (s.ledger.entryOf owner) else .direct owner)

/-- What is told about an executor. -/
def describe (x : ExecutorId) (kind : ExecutorKind) (s : Session) : Answer :=
  match kind, s.dispatch.executors[x]? with
  | _, none => .unknown
  | .chosen, _ => .executor .chosen
  | _, some (.direct owner) => .executor (.direct (debugDirect owner))
  | _, some (.pooled p) =>
    .executor (.pooled p.owner p.outstanding (viewEntry s.ledger p.entry) (debugPooled s.ledger p))

-- ================================================================ steps

/-- Takes a step. -/
def step (st : Step) (s : Session) : Session × Answer :=
  match st with
  | .setClock ms => s.perform (.setClock ms) fun s _ => (s, .time s.ledger.now)
  | .advance ms ns => s.perform (.advance ms ns) fun s _ => (s, .time s.ledger.now)
  | .now => (s, .time s.ledger.now)
  | .startTask path project variant name =>
    s.perform (.startTask path project variant) (nameTask name)
  | .addTask path project variant name =>
    s.perform (.addTask path project variant) (nameTask name)
  | .finishTask path => s.perform (.finishTask path) flag
  | .flush => s.sweep .flush fun s a => (s, .count (countOf a))
  | .pending => (s, .paths s.ledger.pending)
  | .endBuild =>
    let before := s.lines.length
    s.sweep .endBuild fun s a => (s, .built (countOf a) (s.lines.drop before))
  | .entry path name =>
    let e := match path with
      | some p => s.ledger.entryOf p
      | none => .untracked
    ({ s with entries := (name, e) :: s.entries }, .entry (viewEntry s.ledger e))
  | .entryOf record name =>
    match s.tasks.lookup record with
    | none => (s, .unknown)
    | some t =>
      ({ s with entries := (name, .task t) :: s.entries }, .entry (viewEntry s.ledger (.task t)))
  | .info record =>
    match s.tasks.lookup record >>= fun t => s.ledger.tasks[t]? with
    | some t => (s, .info t)
    | none => (s, .unknown)
  | .view target => (s, s.after target none)
  | .await target => s.onTarget target .await
  | .close target => s.onTarget target .close
  | .finish target => s.onTarget target .finish
  | .conclude target => s.onTarget target .conclude
  | .enlist target key kind => s.onTarget target (.enlist · key kind)
  | .attach target spec =>
    match spec.times with
    | .error f => (s, .fault f)
    | .ok (start, length) =>
      s.onTarget target (.attach · spec.kind (spec.thread.getD 0) start length)
  | .report target worker =>
    s.withWorker worker fun w s => s.onTarget target (.report · w)
  | .lookUp target key name =>
    match s.entryAt? target with
    | none => (s, .unknown)
    | some e => s.perform (.lookUp e key) (nameWorker name)
  | .addWorker path kind name => s.perform (.addWorker path kind) (nameWorker name)
  | .startWorker worker =>
    s.withWorker worker fun w s => s.perform (.startWorker w) fun s _ => (s, s.viewWorker w)
  | .endWorker worker =>
    s.withWorker worker fun w s => s.perform (.endWorker w) fun s _ => (s, s.viewWorker w)
  | .showWorker worker => s.withWorker worker fun w s => (s, s.viewWorker w)
  | .debugWorker worker =>
    s.withWorker worker fun w s => (s, match s.ledger.workers[w]? with
      | some k => .text k.debug
      | none => .unknown)
  | .spanOfWorker worker id parent =>
    s.withWorker worker fun w s => (s, match s.ledger.workers[w]? with
      | some k => .span (k.span id parent) k.standIn
      | none => .unknown)
  | .allocate => s.perform .allocate fun s a => (s, match a with
      | .number n => .id n
      | _ => .unknown)
  | .write project variant span children =>
    match span.withChildren children with
    | .error f => (s, .fault f)
    | .ok (span, children) =>
      s.perform (.write { project, variant, span, children }) fun s a => (s, match a with
        | .refused e => .error e
        | _ => .ok)
  | .records => (s, s.held false)
  | .text => (s, s.held true)
  | .length =>
    match contents s.ledger true with
    | .error e => (s, .error e)
    | .ok cs => (s, if s.spec == .memory then .sizes cs.length else .count cs.length)
  | .reopen spec =>
    match s.ledger.attachSink spec with
    | (l, .error e) => (s.withLedger l, .error e)
    | (l, .ok ()) => ({ s.withLedger l with spec := spec }, .ok)
  | .addExecutor kind owner entry name =>
    match s.executorFor kind owner entry with
    | none => (s, .unknown)
    | some x =>
      let (d, n) := s.dispatch.addExecutor x
      ({ s.withDispatch d with executors := (name, n, kind) :: s.executors },
        .pooled (match x with
          | .pooled _ => true
          | .direct _ => false))
  | .submit executor work =>
    s.withExecutor executor fun x _ s =>
      let (d, r) := s.dispatch.submit x work
      let (s, ran) := (s.withDispatch d).untold
      (s, .submitted r ran s.ledger.now)
  | .runNext n =>
    let us := s.dispatch.queue.take n
    let (s, ran) := (s.withDispatch (s.dispatch.seeThrough us)).untold
    (s, .stepped us.length ran s.ledger.now)
  | .awaitAll executor =>
    s.withExecutor executor fun x _ s =>
      let (d, r) := s.dispatch.drainAndAwait x
      let (s, ran) := (s.withDispatch d).untold
      (s, .submitted (.ok r) ran s.ledger.now)
  | .release executor =>
    s.withExecutor executor fun x _ s => (s.withDispatch (s.dispatch.release x), .ok)
  | .stop =>
    let (s, ran) := (s.withDispatch s.dispatch.drain.stop).untold
    (s, .ran ran)
  | .describe executor => s.withExecutor executor fun x kind s => (s, s.describe x kind)
  | .trace => (s, .trace (begun s.dispatch) s.ledger.warnings)
where
  /-- Yes or no. -/
  flag (s : Session) (a : LedgerAnswer) : Session × Answer :=
    (s, match a with
      | .yes b => .yes b
      | _ => .unknown)
  /-- A count. -/
  countOf : LedgerAnswer → Nat
    | .count n => n
    | _ => 0

/-- Takes steps one after another and lists the answers. -/
def run : List Step → Session → Session × List Answer
  | [], s => (s, [])
  | st :: rest, s =>
    let (s, a) := s.step st
    let (s, as) := run rest s
    (s, a :: as)

end Session

end TaskLedger
