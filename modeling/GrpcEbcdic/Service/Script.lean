import GrpcEbcdic.Fold.Accounts
import GrpcEbcdic.Service.Service

/-!
# What a parse has to say

What a parse says depends on neither the client nor the fold: the chunks it lets in are read off the
request stream, the rows are those of the walk over these chunks, and the end of the walk or the first
thing wrong with the request stream ends it. `runParse_eq` shows that the service says just this.
-/

namespace GrpcEbcdic
open Rust Emit

/-- The chunks a parse lets in that has already received some bytes, and how the request stream ends
it. -/
def admitted (limits : Limits) (received : Nat) :
    List Inbound → List (List UInt8) × Except ParseError Unit
  | [] => ([], .ok ())
  | item :: inbound =>
    match nextFrame limits.idleTimeout item with
    | .error (.stream _ text) => ([], .error (.internal s!"request stream failed: {text}"))
    | .error (.idle e) => ([], .error e)
    | .ok request =>
      match request.frame with
      | some (.chunk chunk) =>
        if limits.byteCap < received + chunk.length then
          ([], .error (.exhausted
            s!"the input exceeds the {limits.byteCap}-byte cap for this stream"))
        else
          (chunk :: (admitted limits (received + chunk.length) inbound).1,
            (admitted limits (received + chunk.length) inbound).2)
      | some (.options _) =>
        ([], .error (.invalid "options may only appear in the first frame of a parse stream"))
      | none => admitted limits received inbound

variable [Unicode]

namespace RecordStream

omit [Unicode] in
lemma push_received (walk : RecordStream) (chunk : List UInt8) :
    (walk.push chunk).received = walk.received + chunk.length := by
  unfold RecordStream.push
  dsimp only
  split_ifs <;> rfl

omit [Unicode] in
lemma commit_received (walk : RecordStream) (record : RecordLayout) (total : Nat) :
    (walk.commit record total).received = walk.received := by
  unfold RecordStream.commit
  dsimp only
  split_ifs <;> rfl

lemma nextBody_received {walk walk' : RecordStream} {row : Option Pb.RecordRow}
    (ok : walk.nextBody = (.ok row, walk')) : walk'.received = walk.received := by
  unfold RecordStream.nextBody at ok
  dsimp only at ok
  split_ifs at ok
  · cases ok
    rfl
  · cases ok
    rfl
  · split at ok
    · cases ok
    · split_ifs at ok
      · cases ok
        rfl
      · split at ok
        · cases ok
        · cases ok
          exact commit_received ..

/-- Asking for a record receives nothing. -/
lemma nextRecord_received {walk walk' : RecordStream} {row : Option Pb.RecordRow}
    (ok : walk.nextRecord = (.ok row, walk')) : walk'.received = walk.received := by
  have skipped : (if 0 < walk.headerLeft then walk.skipHeader else walk).received
      = walk.received := by
    split_ifs <;> rfl
  unfold RecordStream.nextRecord at ok
  generalize (if 0 < walk.headerLeft then walk.skipHeader else walk) = walk₁ at ok skipped
  dsimp only at ok
  split_ifs at ok
  · cases ok
    rfl
  · cases ok
    exact skipped
  · exact (nextBody_received ok).trans skipped

lemma drainFor_received {fuel : Nat} {walk walk' : RecordStream}
    (ok : (walk.drainFor fuel).2 = .ok walk') : walk'.received = walk.received := by
  induction fuel generalizing walk with
  | zero =>
    cases ok
    rfl
  | succ fuel ih =>
    rw [RecordStream.drainFor] at ok
    rcases next : walk.nextRecord with ⟨_ | _ | row, walk₁⟩
    · simp only [next] at ok
      cases ok
    · simp only [next] at ok
      cases ok
      exact nextRecord_received next
    · simp only [next] at ok
      exact (ih ok).trans (nextRecord_received next)

end RecordStream

variable [F64]

/-- Send some events in order, then end with a result. -/
abbrev EventSink.play {α : Type} (sink : EventSink) (events : List Pb.Event)
    (res : Except ParseError α) : Except ParseError α × EventSink :=
  Emit.play EventSink.send sink events res

/-- A drain sends the rows of the walk's own drain, and ends as it does. -/
lemma drainFor_eq (fuel : Nat) (walk : RecordStream) (sink : EventSink) :
    drainFor fuel walk sink
      = sink.play ((walk.drainFor fuel).1.map .record) (walk.drainFor fuel).2 := by
  induction fuel generalizing walk sink with
  | zero => rfl
  | succ fuel ih =>
    rw [drainFor, RecordStream.drainFor]
    rcases next : walk.nextRecord with ⟨_ | _ | row, walk₁⟩
    · rfl
    · rfl
    · dsimp only
      rw [List.map_cons, EventSink.play, play_cons]
      congr 1
      funext _ sink
      exact ih walk₁ sink

lemma drain_eq (walk : RecordStream) (sink : EventSink) :
    drain walk sink = sink.play (walk.drain.1.map .record) walk.drain.2 := drainFor_eq ..

/-- The rows of the data frames, and how reading them ends. -/
def intake (limits : Limits) (walk : RecordStream) (inbound : List Inbound) :
    List Pb.RecordRow × Except ParseError RecordStream :=
  let (chunks, stop) := admitted limits walk.received inbound
  match walk.feed chunks with
  | (rows, .error e) => (rows, .error e)
  | (rows, .ok walk) => (rows, stop.map fun _ => walk)

/-- Reading the data frames sends the rows of the chunks that are let in. -/
lemma receive_eq (limits : Limits) (walk : RecordStream) (inbound : List Inbound)
    (sink : EventSink) :
    receive limits walk inbound sink
      = sink.play ((intake limits walk inbound).1.map .record) (intake limits walk inbound).2 := by
  induction inbound generalizing walk sink with
  | nil => rfl
  | cons item inbound ih =>
    unfold receive intake admitted
    rcases nextFrame limits.idleTimeout item with (⟨_, text⟩ | e) | ⟨_ | (options | chunk)⟩
    · rfl
    · rfl
    · exact ih walk sink
    · rfl
    · dsimp only
      split_ifs with exceeds
      · rfl
      · rw [drain_eq]
        dsimp only
        rw [RecordStream.feed]
        rcases drained : (walk.push chunk).drain with ⟨rows, e | walk₁⟩
        · exact play_error_andThen ..
        · have received : walk₁.received = walk.received + chunk.length :=
            (RecordStream.drainFor_received (congrArg Prod.snd drained)).trans
              (RecordStream.push_received walk chunk)
          dsimp only
          rw [EventSink.play, play_ok_andThen]
          simp only [ih]
          rw [intake, received]
          dsimp only
          rcases walk₁.feed (admitted limits (walk.received + chunk.length) inbound).1
            with ⟨rows', e | walk₂⟩
          · rw [List.map_append]
            exact (play_append ..).symm
          · rw [List.map_append]
            exact (play_append ..).symm

/-- The rows of a parse, and what ends it: the trailer of its walk, or an error. -/
def recital (limits : Limits) (walk : RecordStream) (inbound : List Inbound) :
    List Pb.RecordRow × Except ParseError Pb.ParseStatus :=
  match intake limits walk inbound with
  | (rows, .error e) => (rows, .error e)
  | (rows, .ok walk) =>
    match walk.finishInput.drain with
    | (rows', .error e) => (rows ++ rows', .error e)
    | (rows', .ok walk) => (rows ++ rows', walk.status)

omit [F64] in
/-- The rows and the trailer of a parse that ends well are those of the walk over the chunks it let
in. -/
lemma recital_walk {layout : Layout} {options : DecodeOptions} {limits : Limits}
    {inbound : List Inbound} {rows : List Pb.RecordRow} {status : Pb.ParseStatus}
    (said : recital limits (RecordStream.new layout options) inbound = (rows, .ok status)) :
    walk layout options (admitted limits 0 inbound).1 = (rows, .finished (.ok status)) := by
  have received : (RecordStream.new layout options).received = 0 := rfl
  unfold recital intake at said
  unfold walk
  rw [received] at said
  generalize admitted limits 0 inbound = let_in at said ⊢
  obtain ⟨chunks, stop⟩ := let_in
  dsimp only at said ⊢
  generalize (RecordStream.new layout options).feed chunks = fed at said ⊢
  obtain ⟨rows₁, e | walk₁⟩ := fed
  · cases said
  · rcases stop with e | _
    · cases said
    · dsimp only [Except.map] at said ⊢
      generalize walk₁.finishInput.drain = drained at said ⊢
      obtain ⟨rows₂, e | walk₂⟩ := drained
      · cases said
      · obtain ⟨rfl, ok⟩ := Prod.mk.inj said
        dsimp only
        rw [ok]

/-- The parse sends the layout and the rows, and then finishes with the trailer. -/
theorem runParse_eq (walk : RecordStream) (layoutInfo : Pb.LayoutInfo) (limits : Limits)
    (inbound : List Inbound) (sink : EventSink) :
    runParse walk layoutInfo limits inbound sink
      = andThen (sink.play (openingEvents layoutInfo (recital limits walk inbound).1)
          (recital limits walk inbound).2) fun status sink => sink.finish status := by
  rw [openingEvents, EventSink.play, play_cons, andThen_assoc, runParse]
  congr 1
  funext _ sink
  rw [receive_eq, recital]
  rcases intake limits walk inbound with ⟨rows, e | walk₁⟩
  · dsimp only
    rw [EventSink.play, play_error_andThen, play_error_andThen]
  · dsimp only
    rw [EventSink.play, play_ok_andThen]
    simp only [drain_eq]
    rcases walk₁.finishInput.drain with ⟨rows', e | walk₂⟩
    · simp only [EventSink.play, play_error_andThen, List.map_append]
      rw [← play_append]
    · dsimp only
      rw [List.map_append, play_append, andThen_assoc]
      congr 1
      funext _ sink
      rw [EventSink.play, play_ok_andThen]
      rcases walk₂.status with e | status
      · rw [play_error_andThen]
        exact play_ok_result ..
      · conv_rhs => rw [play_ok_andThen]

omit [F64] [Unicode] in
/-- The walk itself never warns about the document. -/
lemma RecordStream.status_code {walk : RecordStream} {status : Pb.ParseStatus}
    (ok : walk.status = .ok status) :
    ∀ warning ∈ status.warnings, warning.code ≠ Pb.WarningCode.documentRowsTruncated.toI32 := by
  unfold RecordStream.status at ok
  split_ifs at ok
  all_goals
    cases ok
    intro warning mem
  · obtain rfl := List.mem_singleton.mp mem
    exact Int.ne_of_lt (by decide : (3 : Int) < 4)
  · obtain rfl := List.mem_singleton.mp mem
    exact Int.ne_of_lt (by decide : (2 : Int) < 4)
  · obtain rfl := List.mem_singleton.mp mem
    exact Int.ne_of_lt (by decide : (1 : Int) < 4)
  · cases mem

omit [F64] in
/-- Nor does the trailer of a parse, which is that of some state of its walk. -/
lemma recital_codes {limits : Limits} {walk : RecordStream} {inbound : List Inbound}
    {status : Pb.ParseStatus} (ok : (recital limits walk inbound).2 = .ok status) :
    ∀ warning ∈ status.warnings, warning.code ≠ Pb.WarningCode.documentRowsTruncated.toI32 := by
  unfold recital at ok
  generalize intake limits walk inbound = taken at ok
  obtain ⟨rows, e | walk₁⟩ := taken
  · cases ok
  · dsimp only at ok
    generalize walk₁.finishInput.drain = drained at ok
    obtain ⟨rows', e | walk₂⟩ := drained
    · cases ok
    · exact RecordStream.status_code ok

/-- The events of a parse all of which are taken. -/
def parseEvents (layoutInfo : Pb.LayoutInfo) (fold : Option DocumentFold) :
    List Pb.RecordRow × Except ParseError Pb.ParseStatus → List Pb.Event
  | (rows, .error _) => openingEvents layoutInfo rows
  | (rows, .ok status) =>
    match fold with
    | none => openingEvents layoutInfo rows ++ [.status status]
    | some fold =>
      let fold := (openingEvents layoutInfo rows).foldl DocumentFold.consume fold
      openingEvents layoutInfo rows ++ [.document fold.take,
        .status { status with warnings := status.warnings ++ fold.truncationWarnings }]

namespace EventSink

omit [Unicode] in
/-- What a send that is taken leaves. -/
lemma send_ok {sink sink' : EventSink} {event : Pb.Event} (ok : sink.send event = (.ok (), sink')) :
    sink'.tx.items = sink.tx.items ++ [.ok event] ∧
      sink'.fold = sink.fold.map fun fold => fold.consume event := by
  unfold send Sender.send at ok
  dsimp only at ok
  cases outcome : sink.tx.client sink.tx.attempts with
  | taken =>
    rw [outcome] at ok
    cases ok
    exact ⟨rfl, rfl⟩
  | closed => rw [outcome] at ok; cases ok
  | stalled => rw [outcome] at ok; cases ok

omit [Unicode] in
/-- A script that is taken to its end has been folded and sent as it is. -/
lemma play_ok {α : Type} {sink sink' : EventSink} {events : List Pb.Event} {a : α}
    {res : Except ParseError α} (ok : sink.play events res = (.ok a, sink')) :
    res = .ok a ∧ sink'.tx.items = sink.tx.items ++ events.map .ok ∧
      sink'.fold = sink.fold.map fun fold => events.foldl DocumentFold.consume fold := by
  induction events generalizing sink with
  | nil =>
    cases ok
    obtain ⟨tx, fold, idle⟩ := sink'
    cases fold <;> simp
  | cons event events ih =>
    obtain ⟨_, sink₁, sent, rest⟩ := andThen_eq_ok.mp ok
    obtain ⟨res, items, fold⟩ := ih rest
    obtain ⟨items₁, fold₁⟩ := send_ok sent
    refine ⟨res, ?_, ?_⟩
    · rw [items, items₁, List.map_cons, List.append_assoc]
      rfl
    · rw [fold, fold₁, Option.map_map]
      rfl

end EventSink

/-- A parse that succeeds has sent all its events. -/
lemma runParse_ok {walk : RecordStream} {layoutInfo : Pb.LayoutInfo} {limits : Limits}
    {inbound : List Inbound} {sink sink' : EventSink}
    (ok : runParse walk layoutInfo limits inbound sink = (.ok (), sink')) :
    ∃ rows status, recital limits walk inbound = (rows, .ok status) ∧
      sink'.tx.items
        = sink.tx.items ++ (parseEvents layoutInfo sink.fold (rows, .ok status)).map .ok := by
  rw [runParse_eq] at ok
  generalize recital limits walk inbound = said at ok ⊢
  obtain ⟨rows, res⟩ := said
  obtain ⟨status, sink₁, played, last⟩ := andThen_eq_ok.mp ok
  obtain ⟨rfl, items, folded⟩ := EventSink.play_ok played
  refine ⟨rows, status, rfl, ?_⟩
  unfold EventSink.finish at last
  rw [folded] at last
  cases folds : sink.fold with
  | none =>
    rw [folds] at last
    obtain ⟨items', _⟩ := EventSink.send_ok last
    rw [items', items]
    simp [parseEvents]
  | some fold =>
    rw [folds] at last
    obtain ⟨_, sink₂, sent, trailer⟩ := andThen_eq_ok.mp last
    obtain ⟨items', _⟩ := EventSink.send_ok trailer
    obtain ⟨items₂, _⟩ := EventSink.send_ok sent
    rw [items', items₂, items]
    simp [parseEvents, DocumentFold.consume]

end GrpcEbcdic
