import GrpcEbcdic.Service.DocumentRun
import GrpcEbcdic.Service.Waits

/-!
# Calls do not disturb each other

A call among others does what the parse does that is alone: what it has heard and what became of its
sends determine what it has sent and how it ends, whatever the other calls did in between. `Task.rest` is
what the sequential parse has left to do from an await on, and every act of a call keeps it.
-/

namespace GrpcEbcdic
open Rust Emit Interleaved

namespace RecordStream

variable [Unicode] {walk walk' : RecordStream}

/-- What a drain does is read off the next record. -/
lemma drain_drains (valid : walk.layout.Valid) : Drains walk walk.drain.1 walk.drain.2 := by
  have enough : walk.available < walk.pending.length + 1 := Nat.lt_succ_of_le (min_le_right _ _)
  exact (drainFor_drains valid enough).1

lemma drain_error {e : ParseError} (valid : walk.layout.Valid)
    (next : walk.nextRecord = (.error e, walk')) : walk.drain = ([], .error e) := by
  obtain ⟨rows, res⟩ := (drain_drains valid).unique (.error next)
  exact Prod.ext rows res

lemma drain_none (valid : walk.layout.Valid) (next : walk.nextRecord = (.ok none, walk')) :
    walk.drain = ([], .ok walk') := by
  obtain ⟨rows, res⟩ := (drain_drains valid).unique (.none next)
  exact Prod.ext rows res

lemma drain_row {row : Pb.RecordRow} (valid : walk.layout.Valid)
    (next : walk.nextRecord = (.ok (some row), walk')) :
    walk.drain = (row :: walk'.drain.1, walk'.drain.2) := by
  have layout := walk.nextRecord_layout
  rw [next] at layout
  obtain ⟨rows, res⟩ := (drain_drains valid).unique
    (.row next (drain_drains (layout ▸ valid : walk'.layout.Valid)))
  exact Prod.ext rows res

end RecordStream

section Calls

variable [F64] [Unicode]

omit [Unicode] in
/-- A send whose outcome is known. -/
lemma Sender.send_eq {client : Nat → SendOutcome} {attempts : Nat} {outcome : SendOutcome}
    (answers : client attempts = outcome) {items : List (Except Status Pb.Event)}
    {item : Except Status Pb.Event} :
    Sender.send ⟨client, attempts, items⟩ item
      = (outcome, ⟨client, attempts + 1, if outcome = .taken then items ++ [item] else items⟩) := by
  unfold Sender.send
  dsimp only
  rw [answers]
  cases outcome <;> rfl

omit [Unicode] in
lemma Sender.send_extends (tx : Sender) (item : Except Status Pb.Event) :
    tx.items <+: (tx.send item).2.items := by
  obtain ⟨client, attempts, items⟩ := tx
  rw [Sender.send_eq rfl]
  dsimp only
  split_ifs
  · exact List.prefix_append ..
  · exact List.prefix_rfl

/-- How a run of a parse ends: its result, and the channel. -/
def ends (run : Except ParseError Unit × EventSink) : Except ParseError Unit × Sender :=
  (run.1, run.2.tx)

/-- What the sequential parse has left to do when the input is over. -/
def lastDrain (walk : RecordStream) (sink : EventSink) : Except ParseError Unit × EventSink :=
  andThen (drain walk sink) fun walk sink =>
  match walk.status with
  | .error e => (.error e, sink)
  | .ok status => sink.finish status

/-- What the sequential parse has left to do when it is to read on. -/
def readOn (limits : Limits) (rest : List Inbound) (walk : RecordStream) (sink : EventSink) :
    Except ParseError Unit × EventSink :=
  andThen (receive limits walk rest sink) fun walk sink => lastDrain walk.finishInput sink

/-- What the sequential parse has left to do behind a drain. -/
def drainOn (limits : Limits) (rest : List Inbound) (last : Bool) (walk : RecordStream)
    (sink : EventSink) : Except ParseError Unit × EventSink :=
  if last then lastDrain walk sink else andThen (drain walk sink) (readOn limits rest)

/-- What the sequential parse has left to do behind an event. -/
def Next.rest (limits : Limits) (rest : List Inbound) (next : Next) (sink : EventSink) :
    Except ParseError Unit × EventSink :=
  match next with
  | .receive walk => readOn limits rest walk sink
  | .drain last walk => drainOn limits rest last walk sink
  | .trailer status => sink.send (.status status)
  | .done => (.ok (), sink)

/-- What the sequential parse has left to do from an await on. -/
def Task.rest (limits : Limits) (rest : List Inbound) (tx : Sender) :
    Task → Except ParseError Unit × EventSink
  | .sending fold event next =>
    let (outcome, tx) := tx.send (.ok event)
    let sink := ⟨tx, fold, limits.idleTimeout⟩
    match outcome with
    | .taken => next.rest limits rest sink
    | .closed => (.error (.internal "the client stopped reading the event stream"), sink)
    | .stalled =>
      (.error (.timedOut
        (s!"the client took no event for {limits.idleTimeout} ms; a stalled stream " ++
          "may not hold a parse slot")), sink)
  | .receiving fold walk => readOn limits rest walk ⟨tx, fold, limits.idleTimeout⟩
  | .decided res => (res, ⟨tx, none, limits.idleTimeout⟩)

omit [Unicode] in
/-- Nothing is left behind a send that nothing follows. -/
lemma send_done (sink : EventSink) (event : Pb.Event) :
    (andThen (sink.send event) fun _ sink => (.ok (), sink)) = sink.send event := by
  obtain ⟨_ | _, _⟩ := sink.send event <;> rfl

variable {limits : Limits} {rest : List Inbound} {tx : Sender} {walk walk' : RecordStream}

/-- A drain ends where its walk fails. -/
lemma drainOn_error {e : ParseError} (valid : walk.layout.Valid)
    (next : walk.nextRecord = (.error e, walk')) (last : Bool) (sink : EventSink) :
    drainOn limits rest last walk sink = (.error e, sink) := by
  have drained : drain walk sink = (.error e, sink) := by
    rw [drain_eq, RecordStream.drain_error valid next]
    rfl
  unfold drainOn lastDrain
  rw [drained]
  exact ite_self _

/-- Behind the last record a drain goes on. -/
lemma drainOn_none (valid : walk.layout.Valid) (next : walk.nextRecord = (.ok none, walk'))
    (last : Bool) (sink : EventSink) :
    drainOn limits rest last walk sink
      = if last then
          match walk'.status with
          | .error e => (.error e, sink)
          | .ok status => sink.finish status
        else readOn limits rest walk' sink := by
  have drained : drain walk sink = (.ok walk', sink) := by
    rw [drain_eq, RecordStream.drain_none valid next]
    rfl
  unfold drainOn lastDrain
  rw [drained]
  rfl

/-- A drain sends the next record, and goes on with those behind it. -/
lemma drainOn_row {row : Pb.RecordRow} (valid : walk.layout.Valid)
    (next : walk.nextRecord = (.ok (some row), walk')) (last : Bool) (sink : EventSink) :
    drainOn limits rest last walk sink
      = andThen (sink.send (.record row)) fun _ sink => drainOn limits rest last walk' sink := by
  have drained : drain walk sink = andThen (sink.send (.record row)) fun _ sink => drain walk' sink := by
    simp only [drain_eq]
    rw [RecordStream.drain_row valid next]
    rfl
  cases last with
  | false =>
    show andThen (drain walk sink) _ = _
    rw [drained]
    exact andThen_assoc ..
  | true =>
    show andThen (drain walk sink) _ = _
    rw [drained]
    exact andThen_assoc ..

namespace Task

/-- A send is left when the task waits for it. -/
lemma send_rest (fold : Option DocumentFold) (event : Pb.Event) (next : Next) :
    (send fold event next).rest limits rest tx
      = andThen (EventSink.send ⟨tx, fold, limits.idleTimeout⟩ event) fun _ sink =>
          next.rest limits rest sink := by
  unfold send Task.rest EventSink.send
  dsimp only
  rcases tx.send (.ok event) with ⟨_ | _ | _, tx'⟩
  · rfl
  · rfl
  · rfl

/-- To finish is to send the closing events. -/
lemma finish_rest (fold : Option DocumentFold) (status : Pb.ParseStatus) :
    (finish fold status).rest limits rest tx
      = EventSink.finish ⟨tx, fold, limits.idleTimeout⟩ status := by
  cases fold with
  | none =>
    rw [finish, send_rest]
    exact send_done ..
  | some fold =>
    rw [finish, send_rest]
    rfl

/-- To drain is to send the next record with a drain left, or to go on. -/
lemma drain_rest (valid : walk.layout.Valid) (last : Bool) (fold : Option DocumentFold)
    (metrics : Metrics) :
    ends ((drain last walk fold metrics).1.rest limits rest tx)
      = ends (drainOn limits rest last walk ⟨tx, fold, limits.idleTimeout⟩) := by
  unfold drain
  rcases next : walk.nextRecord with ⟨e | _ | row, walk'⟩
  · rw [drainOn_error valid next]
    rfl
  · rw [drainOn_none valid next]
    dsimp only
    split_ifs
    · rcases walk'.status with e | status
      · rfl
      · exact congrArg ends (finish_rest fold status)
    · rfl
  · rw [drainOn_row valid next]
    exact congrArg ends (send_rest ..)

/-- What is left of an item of the request stream, or of its end, is left of what follows it. -/
lemma receive_rest (valid : walk.layout.Valid) (item : Option Inbound) (ended : item = none → rest = [])
    (fold : Option DocumentFold) (metrics : Metrics) :
    ends ((receive limits walk fold item metrics).1.rest limits rest tx)
      = ends (readOn limits (item.toList ++ rest) walk ⟨tx, fold, limits.idleTimeout⟩) := by
  cases item with
  | none =>
    have finished : walk.finishInput.layout.Valid := valid
    rw [ended rfl]
    exact drain_rest finished true fold metrics
  | some item =>
    show _ = ends (readOn limits (item :: rest) walk _)
    unfold receive readOn GrpcEbcdic.receive
    dsimp only
    rcases nextFrame limits.idleTimeout item with (⟨_, text⟩ | e) | ⟨_ | (options | chunk)⟩
    · rfl
    · rfl
    · rfl
    · rfl
    · dsimp only
      split_ifs
      · rfl
      · rw [andThen_assoc]
        apply drain_rest
        rw [RecordStream.push_layout]
        exact valid

end Task

omit [Unicode] in
/-- The walk an event waits before has a valid layout. -/
lemma Next.Within.valid {past : History} {next : Next} (within : next.Within past) :
    ∀ last, next = .drain last walk → walk.layout.Valid := by
  rintro last rfl
  exact AtWalk.valid within

/-- What the parse can still hear from an event on; nothing once the input is over. -/
def Next.Open (rest : List Inbound) : Next → Prop
  | .receive _ => True
  | .drain last _ => last = true → rest = []
  | _ => rest = []

/-- What the parse can still hear from an await on. -/
def Task.Open (rest : List Inbound) : Task → Prop
  | .sending _ _ next => next.Open rest
  | .receiving _ _ => True
  | .decided _ => rest = []

namespace Task

lemma finish_open {fold : Option DocumentFold} {status : Pb.ParseStatus}
    (listens : (finish fold status).Open rest) : rest = [] := by
  cases fold with
  | none => exact listens
  | some fold => exact listens

/-- A drain listens when it goes on to the next frame. -/
lemma drain_open {last : Bool} {fold : Option DocumentFold} {metrics : Metrics}
    (listens : (drain last walk fold metrics).1.Open rest) : last = true → rest = [] := by
  revert listens
  unfold drain
  rcases walk.nextRecord with ⟨e | _ | row, walk'⟩
  · exact fun listens _ => listens
  · rintro listens rfl
    revert listens
    dsimp only
    rw [if_pos rfl]
    rcases walk'.status with e | status
    · exact id
    · exact finish_open
  · exact id

lemma receive_open {item : Option Inbound} {fold : Option DocumentFold} {metrics : Metrics}
    (listens : (receive limits walk fold item metrics).1.Open rest) : item = none → rest = [] := by
  rintro rfl
  exact drain_open listens rfl

lemma taken_open {fold : Option DocumentFold} {next : Next} {metrics : Metrics}
    (listens : (taken fold next metrics).1.Open rest) : next.Open rest := by
  cases next with
  | receive walk => trivial
  | drain last walk => exact drain_open listens
  | trailer status => exact listens
  | done => exact listens

lemma sent_open {idleTimeout : Nat} {outcome : SendOutcome} {fold : Option DocumentFold}
    {next : Next} {metrics : Metrics}
    (listens : (sent idleTimeout outcome fold next metrics).1.Open rest) : next.Open rest := by
  have nothing (none : rest = []) : next.Open rest := by
    cases next with
    | receive walk => trivial
    | drain last walk => exact fun _ => none
    | trailer status => exact none
    | done => exact none
  cases outcome with
  | taken => exact taken_open listens
  | closed => exact nothing listens
  | stalled => exact nothing listens

/-- What is left behind an event that has been taken. -/
lemma taken_rest {past : History} (fold : Option DocumentFold) {next : Next}
    (within : next.Within past) (metrics : Metrics) :
    ends ((taken fold next metrics).1.rest limits rest tx)
      = ends (next.rest limits rest ⟨tx, fold, limits.idleTimeout⟩) := by
  cases next with
  | receive walk => rfl
  | drain last walk => exact drain_rest (AtWalk.valid within) last fold metrics
  | trailer status =>
    show ends ((send fold (.status status) .done).rest limits rest tx) = _
    rw [send_rest]
    exact congrArg ends (send_done ..)
  | done => rfl

/-- What is left of a send whose outcome is known. -/
lemma sent_rest {past : History} {client : Nat → SendOutcome} {attempts : Nat}
    {items : List (Except Status Pb.Event)} {outcome : SendOutcome}
    (answers : client attempts = outcome) (fold : Option DocumentFold) (event : Pb.Event) {next : Next}
    (within : next.Within past) (metrics : Metrics) :
    ends ((sent limits.idleTimeout outcome fold next metrics).1.rest limits rest
        ⟨client, attempts + 1, if outcome = .taken then items ++ [.ok event] else items⟩)
      = ends ((Task.sending fold event next).rest limits rest ⟨client, attempts, items⟩) := by
  conv_rhs => rw [Task.rest, Sender.send_eq answers]
  cases outcome with
  | taken => exact taken_rest fold within metrics
  | closed => rfl
  | stalled => rfl

end Task

/-- A client that answers the first sends with some outcomes. -/
def AnswersAs (client : Nat → SendOutcome) (outcomes : List SendOutcome) : Prop :=
  ∀ k outcome, outcomes[k]? = some outcome → client k = outcome

omit [F64] [Unicode] in
/-- A client that takes whatever is sent after some sends. -/
lemma answers_taken (outcomes : List SendOutcome) :
    AnswersAs (fun k => outcomes.getD k .taken) outcomes := by
  intro k outcome at_k
  show outcomes.getD k .taken = outcome
  rw [List.getD_eq_getElem?_getD, at_k]
  rfl

omit [F64] [Unicode] in
lemma AnswersAs.concat {client : Nat → SendOutcome} {outcomes : List SendOutcome}
    {outcome : SendOutcome} (answers : AnswersAs client (outcomes ++ [outcome])) :
    AnswersAs client outcomes ∧ client outcomes.length = outcome := by
  constructor
  · intro k before at_k
    apply answers
    rw [List.getElem?_append_left (List.getElem?_eq_some_iff.mp at_k).1]
    exact at_k
  · exact answers _ _ List.getElem?_concat_length

/-- What is left of a call agrees with the parse that runs alone, for every client that answers as this
one did. -/
def Task.Keeps (opening : Opening) (more : List Inbound) (past : History) (task : Task) : Prop :=
  ∀ rest client, task.Open rest → AnswersAs client past.outcomes →
    ends (task.rest opening.limits rest ⟨client, past.outcomes.length, past.items⟩)
      = ends (runParse opening.walk opening.layoutInfo opening.limits (more ++ rest)
          ⟨⟨client, 0, []⟩, opening.fold, opening.limits.idleTimeout⟩)

/-- The items a run of a parse leaves in the channel, the error of a failed one behind them. -/
def said (run : Except ParseError Unit × Sender) : List (Except Status Pb.Event) :=
  match run with
  | (.ok (), tx) => tx.items
  | (.error e, tx) => (tx.send (.error e.toStatus)).2.items

/-- A call that is over has sent what the parse that runs alone sends. -/
def Told (opening : Opening) (more : List Inbound) (past : History) (res : Except ParseError Unit) :
    Prop :=
  ∀ client, AnswersAs client past.outcomes →
    (runParse opening.walk opening.layoutInfo opening.limits more
      ⟨⟨client, 0, []⟩, opening.fold, opening.limits.idleTimeout⟩).1 = res ∧
    past.items = said (ends (runParse opening.walk opening.layoutInfo opening.limits more
      ⟨⟨client, 0, []⟩, opening.fold, opening.limits.idleTimeout⟩))

variable [SerdeJson]

/-- What holds of a call that has heard the first item of its request stream. -/
def Started (service : EbcdicGrpc) (past : History) (keeps : Opening → List Inbound → Prop) : Prop :=
  ∃ first more opening, past.heard = first :: more ∧ service.begin (some first) = .ok opening ∧
    keeps opening more

/-- The items on the channel of a parse that is admitted. -/
lemma parseEbcdic_eq (service : EbcdicGrpc) {running : Nat} (free : running < service.maxConcurrentParses)
    (client : Nat → SendOutcome) (inbound : List Inbound) :
    service.parseEbcdic running client inbound
      = (service.begin inbound.head?).map fun opening =>
          said (ends (runParse opening.walk opening.layoutInfo opening.limits inbound.tail
            ⟨⟨client, 0, []⟩, opening.fold, opening.limits.idleTimeout⟩)) := by
  have opens : openingOptions service.idleTimeout inbound
      = openingOptions service.idleTimeout inbound.head?.toList := by
    cases inbound <;> rfl
  unfold EbcdicGrpc.parseEbcdic EbcdicGrpc.begin EbcdicGrpc.opening
  rw [if_neg (Nat.not_le_of_lt free), opens]
  rcases openingOptions service.idleTimeout inbound.head?.toList with status | options
  · rfl
  · dsimp only
    rcases Codec.resolve options.encoding with e | codec
    · rfl
    · dsimp only
      rcases resolve options with e | layout
      · rfl
      · dsimp only [Except.map, EbcdicGrpc.openingOf]
        generalize runParse _ _ _ _ _ = run
        obtain ⟨_ | _, _⟩ := run
        · rfl
        · rfl

/-- A call agrees so far with the parse that runs alone on what it has heard. -/
def Phase.Keeps (service : EbcdicGrpc) (past : History) : Phase → Prop
  | .opening => past.heard = [] ∧ past.outcomes = [] ∧ past.items = []
  | .parsing limits task =>
    Started service past fun opening more => limits = opening.limits ∧ task.Keeps opening more past
  | .released res => Started service past fun opening more => Task.Keeps opening more past (.decided res)
  | .failed e =>
    Started service past fun opening more => Task.Keeps opening more past (.decided (.error e))
  | .failing e =>
    Started service past fun opening more => Task.Keeps opening more past (.decided (.error e))
  | .ended res => Started service past fun opening more => Told opening more past res
  | .rejected _ => past.heard = []
  | .refused status => service.begin past.heard.head? = .error status
  | .cancelled => past.items = []

/-- Every act keeps the agreement. -/
lemma act_keeps (service : EbcdicGrpc) (happening : Happening) (call : ParseCall) (shared : Shared)
    (within : call.phase.Within service call.toHistory)
    (keeps : call.phase.Keeps service call.toHistory) :
    (service.server.act happening call shared).1.phase.Keeps service
      (service.server.act happening call shared).1.toHistory := by
  have moves := act_moves service happening call shared
  generalize service.server.act happening call shared = after at moves
  cases moves with
  | stay => exact keeps
  | @refuse item status phase refused =>
    rw [phase] at keeps
    obtain ⟨heard, _, _⟩ := keeps
    show service.begin (call.heard ++ item.toList).head? = .error status
    rw [heard, ← refused]
    cases item <;> rfl
  | @start item opening phase ok =>
    rw [phase] at keeps
    obtain ⟨heard, outcomes, items⟩ := keeps
    cases item with
    | none => cases ok
    | some first =>
      refine ⟨first, [], opening, ?_, ok, rfl, fun rest client _ _ => ?_⟩
      · show call.heard ++ [first] = [first]
        rw [heard, List.nil_append]
      · show ends (Task.rest opening.limits rest ⟨client, call.outcomes.length, call.items⟩ _) = _
        rw [outcomes, items, Task.send_rest]
        rfl
  | @hear limits fold walk item phase =>
    rw [phase] at keeps within
    obtain ⟨first, more, opening, heard, ok, rfl, keeps⟩ := keeps
    refine ⟨first, more ++ item.toList, opening, ?_, ok, rfl, fun rest client listens answers => ?_⟩
    · show call.heard ++ item.toList = _
      rw [heard, List.cons_append]
    · rw [List.append_assoc, ← keeps (item.toList ++ rest) client trivial answers]
      exact Task.receive_rest within.2.2.2.valid item (Task.receive_open listens) fold shared.metrics
  | @sent limits fold event next outcome phase =>
    rw [phase] at keeps within
    obtain ⟨first, more, opening, heard, ok, rfl, keeps⟩ := keeps
    refine ⟨first, more, opening, heard, ok, rfl, fun rest client listens answers => ?_⟩
    obtain ⟨before, last⟩ := AnswersAs.concat answers
    rw [← keeps rest client (Task.sent_open listens) before]
    show ends (Task.rest opening.limits rest ⟨client, (call.outcomes ++ [outcome]).length, _⟩ _) = _
    rw [List.length_append]
    exact Task.sent_rest last fold event within.2.2.2 shared.metrics
  | @told e outcome phase =>
    rw [phase] at keeps
    obtain ⟨first, more, opening, heard, ok, keeps⟩ := keeps
    refine ⟨first, more, opening, heard, ok, fun client answers => ?_⟩
    obtain ⟨before, last⟩ := AnswersAs.concat answers
    have ran := keeps [] client rfl before
    rw [List.append_nil] at ran
    refine ⟨(congrArg Prod.fst ran).symm, ?_⟩
    rw [← ran]
    exact (congrArg (fun sent : SendOutcome × Sender => sent.2.items) (Sender.send_eq last)).symm
  | release phase =>
    rw [phase] at keeps
    obtain ⟨first, more, opening, heard, ok, _, keeps⟩ := keeps
    exact ⟨first, more, opening, heard, ok, keeps⟩
  | complete phase =>
    rw [phase] at keeps
    obtain ⟨first, more, opening, heard, ok, keeps⟩ := keeps
    refine ⟨first, more, opening, heard, ok, fun client answers => ?_⟩
    have ran := keeps [] client rfl answers
    rw [List.append_nil] at ran
    refine ⟨(congrArg Prod.fst ran).symm, ?_⟩
    rw [← ran]
    rfl
  | fail phase =>
    rw [phase] at keeps
    exact keeps
  | charge phase =>
    rw [phase] at keeps
    exact keeps
  | cancel phase =>
    rw [phase] at keeps
    exact keeps.2.2

section Extends

/-- A run leaves the items the channel had taken before it. -/
def Extends {α : Type} (sink : EventSink) (run : Except ParseError α × EventSink) : Prop :=
  sink.tx.items <+: run.2.tx.items

omit [Unicode] [SerdeJson]

lemma Extends.play {α : Type} (sink : EventSink) (events : List Pb.Event) (res : Except ParseError α) :
    Extends sink (sink.play events res) := by
  unfold Extends
  rcases sink.play_items events res with ⟨sink', played, items⟩ | ⟨e, sink', front, _, played, _, _, items⟩
  · rw [played, items]
    exact List.prefix_append ..
  · rw [played, items]
    exact List.prefix_append ..

lemma Extends.send (sink : EventSink) (event : Pb.Event) : Extends sink (sink.send event) := by
  rw [← send_done]
  exact .play sink [event] (.ok ())

lemma Extends.andThen {α β : Type} {sink : EventSink} {run : Except ParseError α × EventSink}
    {go : α → EventSink → Except ParseError β × EventSink} (extends_run : Extends sink run)
    (goes : ∀ a sink', Extends sink' (go a sink')) : Extends sink (andThen run go) := by
  obtain ⟨e | a, sink'⟩ := run
  · exact extends_run
  · exact List.IsPrefix.trans extends_run (goes a sink')

variable [Unicode]

lemma Extends.finish (sink : EventSink) (status : Pb.ParseStatus) :
    Extends sink (sink.finish status) := by
  unfold EventSink.finish
  cases sink.fold with
  | none => exact .send ..
  | some fold =>
    show Extends { sink with fold := none } _
    exact (Extends.send ..).andThen fun _ sink => .send sink _

lemma Extends.lastDrain (walk : RecordStream) (sink : EventSink) : Extends sink (lastDrain walk sink) := by
  apply Extends.andThen
  · rw [drain_eq]
    exact .play ..
  · intro walk sink
    rcases walk.status with e | status
    · exact List.prefix_rfl
    · exact .finish sink status

lemma Extends.readOn (limits : Limits) (rest : List Inbound) (walk : RecordStream) (sink : EventSink) :
    Extends sink (readOn limits rest walk sink) := by
  apply Extends.andThen
  · rw [receive_eq]
    exact .play ..
  · exact fun walk sink => .lastDrain ..

lemma Extends.next (limits : Limits) (rest : List Inbound) (next : Next) (sink : EventSink) :
    Extends sink (next.rest limits rest sink) := by
  cases next with
  | receive walk => exact .readOn ..
  | drain last walk =>
    cases last with
    | false =>
      apply Extends.andThen
      · rw [drain_eq]
        exact .play ..
      · exact fun walk sink => .readOn ..
    | true => exact .lastDrain ..
  | trailer status => exact .send ..
  | done => exact List.prefix_rfl

/-- What is left of a task leaves what the channel has taken. -/
lemma Task.rest_extends (limits : Limits) (rest : List Inbound) (tx : Sender) (task : Task) :
    tx.items <+: (task.rest limits rest tx).2.tx.items := by
  cases task with
  | sending fold event next =>
    have taken := tx.send_extends (.ok event)
    rw [Task.rest]
    generalize tx.send (.ok event) = sent at taken ⊢
    obtain ⟨_ | _ | _, tx'⟩ := sent
    · exact taken.trans (Extends.next limits rest next ⟨tx', fold, limits.idleTimeout⟩)
    · exact taken
    · exact taken
  | receiving fold walk => exact Extends.readOn limits rest walk ⟨tx, fold, limits.idleTimeout⟩
  | decided res => exact List.prefix_rfl

omit [Unicode] in
/-- So does its error. -/
lemma said_extends (run : Except ParseError Unit × EventSink) : run.2.tx.items <+: said (ends run) := by
  obtain ⟨e | _, sink⟩ := run
  · exact sink.tx.send_extends _
  · exact List.prefix_rfl

end Extends

/-- A call was admitted while fewer parses ran than there are slots, or was turned away. -/
def Phase.Admitted (service : EbcdicGrpc) (found : Nat) : Phase → Prop
  | .rejected status =>
    service.maxConcurrentParses ≤ found ∧ status = ⟨.resourceExhausted,
      s!"{service.maxConcurrentParses} parses are already running; retry when one finishes"⟩
  | _ => found < service.maxConcurrentParses

/-- What a call has said is what the parse that runs alone says to the same client, on what this one has
heard. -/
def ParseCall.AsAlone (service : EbcdicGrpc) (call : ParseCall) (client : Nat → SendOutcome) : Prop :=
  match call.phase with
  | .opening => call.items = []
  | .cancelled => call.items = []
  | .rejected status => service.parseEbcdic call.found client call.heard = .error status
  | .refused status => service.parseEbcdic call.found client call.heard = .error status
  | .ended _ => service.parseEbcdic call.found client call.heard = .ok call.items
  | _ => ∃ left, service.parseEbcdic call.found client call.heard = .ok (call.items ++ left)

/-- A call that has started says what the parse says on what it has heard. -/
lemma Started.alone {service : EbcdicGrpc} {call : ParseCall} {keeps : Opening → List Inbound → Prop}
    (started : Started service call.toHistory keeps) (free : call.found < service.maxConcurrentParses)
    (client : Nat → SendOutcome) :
    ∃ opening more, keeps opening more ∧
      service.parseEbcdic call.found client call.heard
        = .ok (said (ends (runParse opening.walk opening.layoutInfo opening.limits more
            ⟨⟨client, 0, []⟩, opening.fold, opening.limits.idleTimeout⟩))) := by
  obtain ⟨first, more, opening, heard, ok, keeps⟩ := started
  refine ⟨opening, more, keeps, ?_⟩
  rw [parseEbcdic_eq service free, heard, List.head?_cons, ok]
  rfl

omit [SerdeJson] in
/-- What is left to say of a parse that keeps the agreement. -/
lemma Task.Keeps.left {opening : Opening} {more : List Inbound} {past : History} {task : Task}
    (keeps : task.Keeps opening more past) (open_nil : task.Open []) {client : Nat → SendOutcome}
    (answers : AnswersAs client past.outcomes) :
    ∃ left, said (ends (runParse opening.walk opening.layoutInfo opening.limits more
      ⟨⟨client, 0, []⟩, opening.fold, opening.limits.idleTimeout⟩)) = past.items ++ left := by
  have ran := keeps [] client open_nil answers
  rw [List.append_nil] at ran
  rw [← ran]
  have items := Task.rest_extends opening.limits [] ⟨client, past.outcomes.length, past.items⟩ task
  obtain ⟨left, eq⟩ := items.trans (said_extends _)
  exact ⟨left, eq.symm⟩

omit [Unicode] [SerdeJson] in
/-- Every task can hear the end of its input. -/
lemma Task.open_nil (task : Task) : task.Open [] := by
  cases task with
  | sending fold event next =>
    cases next with
    | receive walk => trivial
    | drain last walk => exact fun _ => rfl
    | trailer status => rfl
    | done => rfl
  | receiving fold walk => trivial
  | decided res => rfl

/-- A call that agrees with the parse that runs alone says what that one says. -/
lemma Phase.Keeps.alone {service : EbcdicGrpc} {call : ParseCall}
    (keeps : call.phase.Keeps service call.toHistory) (admitted : call.phase.Admitted service call.found)
    {client : Nat → SendOutcome} (answers : AnswersAs client call.outcomes) :
    call.AsAlone service client := by
  have running (task : Task) {more : Opening → List Inbound → Prop}
      (started : Started service call.toHistory more)
      (left : ∀ opening inbound, more opening inbound → task.Keeps opening inbound call.toHistory)
      (free : call.found < service.maxConcurrentParses) :
      ∃ left, service.parseEbcdic call.found client call.heard = .ok (call.items ++ left) := by
    obtain ⟨opening, inbound, keeps, eq⟩ := started.alone free client
    obtain ⟨left, items⟩ := (left opening inbound keeps).left (Task.open_nil _) answers
    exact ⟨left, eq.trans (congrArg _ items)⟩
  unfold ParseCall.AsAlone
  cases phase : call.phase with
  | opening =>
    rw [phase] at keeps
    exact keeps.2.2
  | cancelled =>
    rw [phase] at keeps
    exact keeps
  | rejected status =>
    rw [phase] at admitted
    obtain ⟨full, rfl⟩ := admitted
    exact if_pos full
  | refused status =>
    rw [phase] at keeps admitted
    show service.parseEbcdic call.found client call.heard = _
    rw [parseEbcdic_eq service admitted, keeps]
    rfl
  | parsing limits task =>
    rw [phase] at keeps admitted
    exact running task keeps (fun _ _ keeps => keeps.2) admitted
  | released res =>
    rw [phase] at keeps admitted
    exact running (.decided res) keeps (fun _ _ keeps => keeps) admitted
  | failed e =>
    rw [phase] at keeps admitted
    exact running (.decided (.error e)) keeps (fun _ _ keeps => keeps) admitted
  | failing e =>
    rw [phase] at keeps admitted
    exact running (.decided (.error e)) keeps (fun _ _ keeps => keeps) admitted
  | ended res =>
    rw [phase] at keeps admitted
    obtain ⟨opening, more, told, eq⟩ := Started.alone keeps admitted client
    exact eq.trans (congrArg _ (told client answers).2.symm)

/-- No act changes how a call was admitted. -/
lemma act_admitted (service : EbcdicGrpc) (happening : Happening) (call : ParseCall) (shared : Shared)
    (admitted : call.phase.Admitted service call.found) :
    (service.server.act happening call shared).1.phase.Admitted service
      (service.server.act happening call shared).1.found := by
  have moves := act_moves service happening call shared
  generalize service.server.act happening call shared = after at moves
  cases moves with
  | stay => exact admitted
  | refuse phase _ => rw [phase] at admitted; exact admitted
  | start phase _ => rw [phase] at admitted; exact admitted
  | hear item phase => rw [phase] at admitted; exact admitted
  | sent outcome phase => rw [phase] at admitted; exact admitted
  | told outcome phase => rw [phase] at admitted; exact admitted
  | release phase => rw [phase] at admitted; exact admitted
  | complete phase => rw [phase] at admitted; exact admitted
  | fail phase => rw [phase] at admitted; exact admitted
  | charge phase => rw [phase] at admitted; exact admitted
  | cancel phase => rw [phase] at admitted; exact admitted

/-- Over any interleaving every call agrees with the parse that runs alone. -/
lemma serve_keeps (service : EbcdicGrpc) (events : List (Event Happening)) :
    ∀ call ∈ (service.serve events).components, call.phase.Admitted service call.found ∧
      call.phase.Keeps service call.toHistory ∧ call.phase.Within service call.toHistory := by
  have enter (shared : Shared) (within : shared.permits ≤ service.maxConcurrentParses) :
      (ParseCall.arrive service shared).1.phase.Admitted service (ParseCall.arrive service shared).1.found
        ∧ (ParseCall.arrive service shared).1.phase.Keeps service
          (ParseCall.arrive service shared).1.toHistory
        ∧ (ParseCall.arrive service shared).1.phase.Within service
          (ParseCall.arrive service shared).1.toHistory := by
    unfold ParseCall.arrive
    dsimp only
    split_ifs with none
    · refine ⟨⟨?_, rfl⟩, rfl, rfl, rfl, rfl⟩
      rw [none]
      exact le_rfl
    · exact ⟨Nat.sub_lt_self (Nat.pos_of_ne_zero none) within, ⟨rfl, rfl, rfl⟩, rfl, rfl, rfl⟩
  have permits (events : List (Event Happening)) :
      (service.serve events).shared.permits ≤ service.maxConcurrentParses :=
    (Nat.le_add_right ..).trans_eq (serve_slots service events)
  exact System.after_component
    (P := fun call : ParseCall => call.phase.Admitted service call.found ∧
      call.phase.Keeps service call.toHistory ∧ call.phase.Within service call.toHistory)
    (Q := fun shared : Shared => shared.permits ≤ service.maxConcurrentParses) permits enter
    (fun happening call shared _ before =>
      ⟨act_admitted service happening call shared before.1,
        act_keeps service happening call shared before.2.2 before.2.1,
        act_within service happening call shared before.2.2⟩) events

/-- Over any interleaving of calls, each call says what the sequential parse says to the same client on
the same items, whatever the others do: all of it once it is over, and a front of it before. -/
theorem calls_alone (service : EbcdicGrpc) (events : List (Event Happening)) :
    ∀ call ∈ (service.serve events).components, ∀ client, AnswersAs client call.outcomes →
      call.AsAlone service client := by
  intro call mem client answers
  obtain ⟨admitted, keeps, _⟩ := serve_keeps service events call mem
  exact keeps.alone admitted answers

end Calls

section Sample

attribute [local instance] asciiUnicode noJson coreF64

/-- Of two calls the second falls idle between the options of the first and its first event. -/
def sampleBeside : List (Event Happening) :=
  [.enter, .enter, .act 0 (.hear (some (.message ⟨some (.options sampleRequest)⟩))),
    .act 1 (.hear (some .idle)), .act 0 (.sent .taken)]

theorem calls_alone_sample :
    ∃ call, (EbcdicGrpc.new.serve sampleBeside).components[0]? = some call ∧
      call.outcomes = [.taken] ∧ call.items.length = 1 ∧ call.AsAlone EbcdicGrpc.new keepsReading := by
  refine ⟨_, rfl, rfl, rfl, calls_alone EbcdicGrpc.new sampleBeside _ ?_ _ ?_⟩
  · exact List.mem_of_getElem? (i := 0) rfl
  · intro k outcome at_k
    cases k with
    | zero => exact Option.some.inj at_k
    | succ k => cases at_k

end Sample

end GrpcEbcdic
