import GrpcEbcdic.Fold.Grid
import GrpcEbcdic.Service.Blame
import GrpcEbcdic.Service.Language

/-!
# Documents add up

A document is sent behind all it folds and in front of the trailer that warns of what it leaves out. So a
client can check each document it is handed against what it was handed before, whatever other calls there are
and wherever its own call breaks off.
-/

namespace GrpcEbcdic
open Rust Emit Interleaved

section Due

variable [F64]

/-- In front of an item that is due and was sent, all is due that was sent. -/
lemma due_split {closed : Bool} {sent before behind : List Item} {item : Item} (own : item ≠ noTrailer)
    (eq : due closed sent = before ++ item :: behind) :
    ∃ after, sent = before ++ item :: after ∧ (IsFinal item → behind = []) ∧
      (¬ IsFinal item → behind = due closed after) := by
  induction sent generalizing before with
  | nil =>
    rw [due] at eq
    split_ifs at eq
    · obtain ⟨_, last⟩ | ⟨_, none⟩ := List.singleton_eq_append_iff.mp eq
      · exact absurd (List.cons.inj last).1 own
      · cases none
    · cases (List.nil_eq_append_iff.mp eq).2
  | cons first sent ih =>
    rw [due] at eq
    split_ifs at eq with final
    · obtain ⟨rfl, last⟩ | ⟨_, none⟩ := List.singleton_eq_append_iff.mp eq
      · obtain ⟨rfl, rfl⟩ := List.cons.inj last
        exact ⟨sent, rfl, fun _ => rfl, fun open_ => absurd final open_⟩
      · cases none
    · cases before with
      | nil =>
        obtain ⟨rfl, rest⟩ := List.cons.inj eq
        exact ⟨sent, rfl, fun final' => absurd final' final, fun _ => rest.symm⟩
      | cons first' before =>
        obtain ⟨rfl, rest⟩ := List.cons.inj eq
        obtain ⟨after, rfl, last, more⟩ := ih rest
        exact ⟨after, rfl, last, more⟩

omit [F64] in
lemma prefix_single {α : Type} {xs : List α} {x : α} (front : xs <+: [x]) : xs = [] ∨ xs = [x] := by
  rcases List.prefix_cons_iff.mp front with none | ⟨t, rfl, rest⟩
  · exact .inl none
  · exact .inr (congrArg _ (List.prefix_nil.mp rest))

/-- Behind some errors nothing more is due than the first, or the one that stands for it. -/
lemma due_errors {tail : List Item} (errors : ∀ item ∈ tail, ∃ e, item = .error e) :
    ∃ e, due true tail = [.error e] := by
  cases tail with
  | nil => exact ⟨_, if_pos rfl⟩
  | cons item tail =>
    obtain ⟨e, rfl⟩ := errors item List.mem_cons_self
    exact ⟨e, if_pos trivial⟩

end Due

section Script

variable [F64]

/-- An event as the response stream carries it. -/
def Pb.Event.item (event : Pb.Event) : Item := toItem (.ok event)

/-- An event among some events with errors behind them is one of these events. -/
lemma split_event {front : List Pb.Event} {tail before after : List Item} {event : Pb.Event}
    (errors : ∀ item ∈ tail, ∃ e, item = .error e)
    (eq : front.map Pb.Event.item ++ tail = before ++ event.item :: after) :
    ∃ b a, front = b ++ event :: a ∧ before = b.map Pb.Event.item ∧
      after = a.map Pb.Event.item ++ tail := by
  induction front generalizing before with
  | nil =>
    obtain ⟨e, no⟩ := errors event.item (by
      rw [List.map_nil, List.nil_append] at eq
      rw [eq]
      exact List.mem_append_right _ List.mem_cons_self)
    cases no
  | cons first front ih =>
    cases before with
    | nil =>
      obtain ⟨same, rest⟩ := List.cons.inj eq
      cases same
      exact ⟨[], front, rfl, rfl, rest.symm⟩
    | cons first' before =>
      obtain ⟨rfl, rest⟩ := List.cons.inj eq
      obtain ⟨b, a, rfl, rfl, rfl⟩ := ih rest
      exact ⟨first :: b, a, rfl, rfl, rfl⟩

variable [Unicode] {layoutInfo : Pb.LayoutInfo} {rows : List Pb.RecordRow} {fold : Option DocumentFold}
  {status : Pb.ParseStatus} {front before after : List Pb.Event}

/-- Of what a parse is to say, a document comes behind the layout and the rows, and in front of the
trailer. -/
lemma script_document {document : Doc.Document}
    (said : front <+: openingEvents layoutInfo rows ++ closingEvents fold status)
    (eq : front = before ++ .document document :: after) :
    ∃ f, fold = some f ∧ before = openingEvents layoutInfo rows ∧ document = f.take ∧
      (after = [] ∨
        after = [.status { status with warnings := status.warnings ++ f.truncationWarnings }]) := by
  obtain ⟨more, all⟩ := said
  rw [eq, List.append_assoc, List.cons_append] at all
  have none : Pb.Event.document document ∉ openingEvents layoutInfo rows := by
    simp [openingEvents]
  cases fold with
  | none =>
    have mem : Pb.Event.document document ∈ openingEvents layoutInfo rows ++ [.status status] :=
      all ▸ List.mem_append_right _ List.mem_cons_self
    rcases List.mem_append.mp mem with mem | mem
    · exact absurd mem none
    · cases List.mem_singleton.mp mem
  | some f =>
    have trailer : Pb.Event.document document ∉
        [Pb.Event.status { status with warnings := status.warnings ++ f.truncationWarnings }] := by simp
    obtain ⟨rfl, same, rest⟩ := (List.append_cons_inj_of_notMem none trailer).mp all.symm
    refine ⟨f, rfl, rfl, (Pb.Event.document.inj same).symm, ?_⟩
    exact (List.singleton_eq_append_iff.mp rest).imp And.left And.left

/-- And a trailer comes at the end, behind the document. -/
lemma script_status {status' : Pb.ParseStatus}
    (said : front <+: openingEvents layoutInfo rows ++ closingEvents fold status)
    (eq : front = before ++ .status status' :: after) :
    after = [] ∧ before = openingEvents layoutInfo rows ++ fold.toList.map fun f => .document f.take := by
  obtain ⟨more, all⟩ := said
  rw [eq, List.append_assoc, List.cons_append] at all
  have none := status_notMem_opening layoutInfo rows status'
  cases fold with
  | none =>
    obtain ⟨rfl, _, rest⟩ := (List.append_cons_inj_of_notMem none List.not_mem_nil).mp all.symm
    exact ⟨(List.nil_eq_append_iff.mp rest).1, (List.append_nil _).symm⟩
  | some f =>
    have none' : Pb.Event.status status' ∉ openingEvents layoutInfo rows ++ [.document f.take] := by
      rw [List.mem_append, not_or]
      exact ⟨none, by simp⟩
    rw [closingEvents, List.append_cons (openingEvents layoutInfo rows)] at all
    obtain ⟨rfl, _, rest⟩ := (List.append_cons_inj_of_notMem none' List.not_mem_nil).mp all.symm
    exact ⟨(List.nil_eq_append_iff.mp rest).1, rfl⟩

end Script

section Said

variable [F64]

/-- The items of a run, when it has sent some events: these, and its error. -/
lemma said_front {res : Except ParseError Unit} {sink : EventSink} {front : List Pb.Event}
    (items : sink.tx.items = front.map .ok) :
    ∃ tail, said (ends (res, sink)) = front.map .ok ++ tail ∧ ∀ item ∈ tail, ∃ e, item = .error e := by
  obtain ⟨⟨client, attempts, own⟩, fold, idle⟩ := sink
  rcases res with e | done
  · cases items
    show ∃ tail, (Sender.send ⟨client, attempts, front.map .ok⟩ (.error e.toStatus)).2.items = _ ∧ _
    rw [Sender.send_eq rfl]
    dsimp only
    split_ifs
    · exact ⟨_, rfl, List.forall_mem_singleton.mpr ⟨_, rfl⟩⟩
    · exact ⟨[], (List.append_nil _).symm, fun _ mem => absurd mem List.not_mem_nil⟩
  · exact ⟨[], items.trans (List.append_nil _).symm, fun _ mem => absurd mem List.not_mem_nil⟩

variable [Unicode]

/-- What a parse sends is a front of what it is to say, and its own trailer does not warn of the document. -/
lemma runParse_front (walk : RecordStream) (layoutInfo : Pb.LayoutInfo) (limits : Limits)
    (inbound : List Inbound) (client : Nat → SendOutcome) (fold : Option DocumentFold) (idleTimeout : Nat) :
    ∃ rows status front tail,
      said (ends (runParse walk layoutInfo limits inbound ⟨⟨client, 0, []⟩, fold, idleTimeout⟩))
        = front.map .ok ++ tail ∧
      (∀ item ∈ tail, ∃ e, item = .error e) ∧ front <+: parseEvents layoutInfo fold (rows, .ok status) ∧
      ∀ warning ∈ status.warnings, warning.code ≠ Pb.WarningCode.documentRowsTruncated.toI32 := by
  obtain ⟨rows, status, sink, said, ran, items⟩ | ⟨rows, status, e, sink, front, ran, items, le, _, codes⟩ :=
    runParse_script walk layoutInfo limits inbound client fold idleTimeout
  · rw [ran]
    obtain ⟨tail, all, errors⟩ := said_front items
    exact ⟨rows, status, _, tail, all, errors, List.prefix_rfl, recital_codes (congrArg Prod.snd said)⟩
  · rw [ran]
    obtain ⟨tail, all, errors⟩ := said_front items
    exact ⟨rows, status, front, tail, all, errors, le, codes⟩

/-- The fold of the layout and the rows of a parse. -/
def parseFold (layoutInfo : Pb.LayoutInfo) (rows : List Pb.RecordRow) : DocumentFold :=
  foldEvents crateVersion defaultRowCap defaultByteCap (openingEvents layoutInfo rows)

omit [Unicode] in
lemma parseFold_blank (layoutInfo : Pb.LayoutInfo) (rows : List Pb.RecordRow) :
    (parseFold layoutInfo rows).Blank :=
  (DocumentFold.blank_new crateVersion defaultRowCap defaultByteCap).foldl _

omit [Unicode] in
/-- It accounts for the rows. -/
lemma parseFold_accounts {layoutInfo : Pb.LayoutInfo} (names : (layoutInfo.records.map (·.name)).Nodup)
    (rows : List Pb.RecordRow) :
    Accounts layoutInfo defaultRowCap defaultByteCap rows (parseFold layoutInfo rows) := by
  have acc := (Accounts.start names crateVersion defaultRowCap defaultByteCap).foldRows names rows
  rwa [← foldEvents_opening, List.nil_append] at acc

/-- All its warnings are of the document. -/
lemma truncationWarnings_filter (fold : DocumentFold) :
    fold.truncationWarnings.filter (·.code = Pb.WarningCode.documentRowsTruncated.toI32)
      = fold.truncationWarnings := by
  rw [List.filter_eq_self]
  intro warning mem
  obtain ⟨_, _, rfl⟩ := List.mem_map.mp mem
  exact decide_eq_true rfl

variable [SerdeJson]

/-- What a call that is answered was asked for, and what it says. -/
lemma parseEbcdic_front {service : EbcdicGrpc} {running : Nat} {client : Nat → SendOutcome}
    {inbound : List Inbound} {whole : List (Except Status Pb.Event)}
    (answered : service.parseEbcdic running client inbound = .ok whole) :
    ∃ options more layoutInfo rows status front tail,
      inbound = .message ⟨some (.options options)⟩ :: more ∧
      (∃ (layout : Layout) (encoding : String), layout.Valid ∧ layoutInfo = layout.toLayoutInfo encoding) ∧
      (∀ warning ∈ status.warnings, warning.code ≠ Pb.WarningCode.documentRowsTruncated.toI32) ∧
      whole = front.map .ok ++ tail ∧ (∀ item ∈ tail, ∃ e, item = .error e) ∧
      front <+: openingEvents layoutInfo rows ++ closingEvents
        (if options.emitDocument then some (parseFold layoutInfo rows) else none) status := by
  rcases Nat.lt_or_ge running service.maxConcurrentParses with free | full
  · cases inbound with
    | nil =>
      rw [parseEbcdic_eq service free] at answered
      cases answered
    | cons first more =>
      rw [parseEbcdic_eq service free, List.head?_cons] at answered
      rcases begins : service.begin (some first) with status | opening
      · rw [begins] at answered
        cases answered
      · rw [begins] at answered
        cases answered
        obtain ⟨options, rfl, _⟩ := begin_options begins
        obtain ⟨_, codec, layout, read, _, resolved, rfl⟩ := begin_ok begins
        cases read
        obtain ⟨rows, status, front, tail, all, errors, said, codes⟩ := runParse_front
          (service.openingOf options codec layout).walk (layout.toLayoutInfo codec.name)
          (service.openingOf options codec layout).limits more client
          (service.openingOf options codec layout).fold
          (service.openingOf options codec layout).limits.idleTimeout
        refine ⟨options, more, _, rows, status, front, tail, rfl,
          ⟨layout, codec.name, resolve_valid resolved, rfl⟩, codes, all, errors, ?_⟩
        have asked : (service.openingOf options codec layout).fold.map (fun fold =>
              (openingEvents (layout.toLayoutInfo codec.name) rows).foldl DocumentFold.consume fold)
            = if options.emitDocument then some (parseFold (layout.toLayoutInfo codec.name) rows)
              else none := by
          unfold EbcdicGrpc.openingOf
          dsimp only
          split_ifs
          · rfl
          · rfl
        rwa [parseEvents_ok, asked] at said
  · cases (if_pos full).symm.trans answered

end Said

section Silent

variable [F64] [Unicode] [SerdeJson]

/-- A call says nothing before its response stream opens. -/
lemma serve_silent (service : EbcdicGrpc) (events : List (Event Happening)) :
    ∀ call ∈ (service.serve events).components, call.phase.streams = false → call.items = [] := by
  have enter (shared : Shared) : (ParseCall.arrive service shared).1.phase.streams = false →
      (ParseCall.arrive service shared).1.items = [] := by
    unfold ParseCall.arrive
    dsimp only
    split_ifs
    · exact fun _ => rfl
    · exact fun _ => rfl
  refine System.after_component
    (P := fun call : ParseCall => call.phase.streams = false → call.items = []) (Q := fun _ => True)
    (fun _ => trivial) (fun shared _ => enter shared) ?_ events
  intro happening call shared _ before
  have moves := act_moves service happening call shared
  generalize service.server.act happening call shared = after at moves
  cases moves with
  | stay => exact before
  | refuse phase _ => exact fun _ => before (by rw [phase]; rfl)
  | cancel phase => exact fun _ => before (by rw [phase]; rfl)
  | start phase _ => exact nofun
  | hear item phase => exact nofun
  | sent outcome phase => exact nofun
  | told outcome phase => exact nofun
  | release phase => exact nofun
  | complete phase => exact nofun
  | fail phase => exact nofun
  | charge phase => exact nofun

end Silent

section Documents

variable [F64] [Unicode]

/-- What a client that has been handed a document can count on: with what it was handed before and behind. -/
structure Summed (info : Pb.LayoutInfo) (rows : List Pb.RecordRow) (before : List Item)
    (document : Doc.Document) (behind : List Item) : Prop where
  /-- It has been handed the layout and the rows that the document is of. -/
  before : before = (openingEvents info rows).map Pb.Event.item
  folds : document = (parseFold info rows).take
  sound : integrityErrors document = []
  /-- It has a table for each schema with a row, which shows the first rows and counts the others. -/
  tables : List.Forall₂ (fun schema table => TableOf schema rows (rowsOf rows schema.name) table)
    (info.records.filter fun schema => rowsOf rows schema.name ≠ 0) document.tables
  /-- Nothing follows but an error, or a trailer that warns of exactly the tables that leave rows out. -/
  behind : behind = [] ∨ (∃ e, behind = [.error e]) ∨ ∃ status : Pb.ParseStatus,
    behind = [Pb.Event.item (.status status)] ∧
    List.Forall₂ (fun pair warning => Warned rows pair.1 pair.2 warning)
      (((info.records.filter fun schema => rowsOf rows schema.name ≠ 0).zip document.tables).filter
        fun pair => 0 < pair.2.truncated)
      (status.warnings.filter (·.code = Pb.WarningCode.documentRowsTruncated.toI32))

/-- Whether the client of a call has asked for a document. -/
def Connection.Asked (conn : Connection) : Prop :=
  ∃ options more, conn.call.heard = .message ⟨some (.options options)⟩ :: more ∧
    options.emitDocument = true

/-- What the documents of a call are to its client. -/
structure Connection.Documented (conn : Connection) : Prop where
  document : ∀ before document behind,
    conn.response.handed = before ++ Pb.Event.item (.document document) :: behind →
    conn.Asked ∧ ∃ info rows, Summed info rows before document behind
  /-- Behind its trailer nothing is handed, and in front of it a document exactly if one was asked for. -/
  trailer : ∀ before status behind,
    conn.response.handed = before ++ Pb.Event.item (.status status) :: behind →
    behind = [] ∧
      (conn.Asked ↔ ∃ front document, before = front ++ [Pb.Event.item (.document document)])

variable [SerdeJson]

/-- An event that is handed is one of what the parse has to say, and so is all before it. -/
lemma connect_said (encodedLen : Pb.ParseEbcdicResponse → Nat) (service : EbcdicGrpc)
    (events : List (Event Signal)) {conn : Connection}
    (mem : conn ∈ (service.connect encodedLen events).components) {before behind : List Item}
    {event : Pb.Event} (handed : conn.response.handed = before ++ event.item :: behind) :
    ∃ options more info rows status b a tail,
      conn.call.heard = .message ⟨some (.options options)⟩ :: more ∧
      (∃ (layout : Layout) (encoding : String), layout.Valid ∧ info = layout.toLayoutInfo encoding) ∧
      (∀ warning ∈ status.warnings, warning.code ≠ Pb.WarningCode.documentRowsTruncated.toI32) ∧
      before = b.map Pb.Event.item ∧
      (b ++ event :: a) <+: openingEvents info rows ++ closingEvents
        (if options.emitDocument then some (parseFold info rows) else none) status ∧
      (∀ item ∈ tail, ∃ e, item = .error e) ∧ (IsFinal event.item → behind = []) ∧
      (¬ IsFinal event.item → behind <+: due true (a.map Pb.Event.item ++ tail)) := by
  have wired := connect_wired encodedLen service events conn mem
  obtain ⟨events', call_mem⟩ := connect_call encodedLen service events mem
  have streams : conn.call.phase.streams = true := by
    by_contra silent
    have none := serve_silent service events' conn.call call_mem (Bool.eq_false_of_not_eq_true silent)
    have due_none := wired.inv.holds.handed_prefix
    rw [wired.sent, none, handed] at due_none
    rcases due_mem (due_none.subset (List.mem_append_right _ List.mem_cons_self)) with sent | no
    · cases sent
    · cases no
  obtain ⟨admitted, keeps, _⟩ := serve_keeps service events' conn.call call_mem
  obtain ⟨whole, answered, _, front⟩ := wired.whole (keeps.alone admitted (answers_taken _)) streams
  obtain ⟨options, more, info, rows, status, said, tail, heard, of_layout, codes, rfl, errors, script⟩ :=
    parseEbcdic_front answered
  obtain ⟨rest, all⟩ := front
  rw [handed, List.append_assoc, List.cons_append] at all
  obtain ⟨after, sent, last, goes_on⟩ := due_split (nofun : event.item ≠ noTrailer) all.symm
  rw [List.map_append, List.map_map] at sent
  have errors' : ∀ item ∈ tail.map toItem, ∃ e, item = .error e := by
    intro item mem
    obtain ⟨own, mem', rfl⟩ := List.mem_map.mp mem
    obtain ⟨e, rfl⟩ := errors own mem'
    exact ⟨e, rfl⟩
  obtain ⟨b, a, rfl, rfl, rfl⟩ := split_event errors' sent
  refine ⟨options, more, info, rows, status, b, a, tail.map toItem, heard, of_layout, codes, rfl, script,
    errors', fun final => ?_, fun open_ => ?_⟩
  · exact (List.append_eq_nil_iff.mp (last final)).1
  · exact ⟨rest, goes_on open_⟩

/-- Over any interleaving of calls, each document a client is handed is that of the layout and the rows it
was handed before, and what the document leaves out the trailer behind it says; and a client is handed a
document with its trailer if and only if it asked for one. -/
theorem documents_add_up (encodedLen : Pb.ParseEbcdicResponse → Nat) (service : EbcdicGrpc)
    (events : List (Event Signal)) :
    ∀ conn ∈ (service.connect encodedLen events).components, conn.Documented := by
  intro conn mem
  constructor
  · intro before document behind handed
    obtain ⟨options, more, info, rows, status, b, a, tail, heard, ⟨layout, encoding, valid, rfl⟩, codes, rfl,
      script, errors, _, goes_on⟩ := connect_said encodedLen service events mem handed
    obtain ⟨f, has, rfl, rfl, after⟩ := script_document script rfl
    obtain ⟨asked, fold⟩ := Option.ite_none_right_eq_some.mp has
    cases fold
    have blank := parseFold_blank (layout.toLayoutInfo encoding) rows
    have acc := parseFold_accounts (valid.schemas encoding) rows
    have sound := (integrityErrors_nil_iff _).mpr blank.linked.sound
    refine ⟨⟨options, more, heard, asked⟩, _, rows, rfl, rfl, sound,
      take_tables acc blank (valid.columns encoding), ?_⟩
    have open_ : ¬ IsFinal (Pb.Event.item (.document (parseFold (layout.toLayoutInfo encoding) rows).take)) :=
      fun ⟨_, no⟩ => (nomatch no)
    have behind_due := goes_on open_
    rcases after with rfl | rfl
    · obtain ⟨e, due_eq⟩ := due_errors errors
      rw [List.map_nil, List.nil_append, due_eq] at behind_due
      exact (prefix_single behind_due).imp_right fun eq => .inl ⟨e, eq⟩
    · rw [List.map_singleton, List.singleton_append, due, if_pos ⟨_, rfl⟩] at behind_due
      refine (prefix_single behind_due).imp_right fun eq => .inr ⟨_, eq, ?_⟩
      have own : status.warnings.filter (·.code = Pb.WarningCode.documentRowsTruncated.toI32) = [] :=
        List.filter_eq_nil_iff.mpr fun warning mem is => codes warning mem (of_decide_eq_true is)
      dsimp only
      rw [List.filter_append, own, List.nil_append, truncationWarnings_filter]
      exact take_warnings acc blank
  · intro before status' behind handed
    obtain ⟨options, more, info, rows, status, b, a, tail, heard, _, _, rfl, script, _, last, _⟩ :=
      connect_said encodedLen service events mem handed
    obtain ⟨rfl, rfl⟩ := script_status script rfl
    refine ⟨last ⟨status', rfl⟩, ?_, ?_⟩
    · rintro ⟨options', more', heard', asked⟩
      cases heard.symm.trans heard'
      rw [if_pos asked]
      exact ⟨(openingEvents info rows).map Pb.Event.item, (parseFold info rows).take, List.map_append⟩
    · rintro ⟨front, document, eq⟩
      refine ⟨options, more, heard, ?_⟩
      by_contra plain
      have mem : Pb.Event.item (.document document) ∈ (openingEvents info rows).map Pb.Event.item := by
        rw [if_neg plain, Option.toList_none, List.map_nil, List.append_nil] at eq
        exact eq ▸ List.mem_append_right _ (List.mem_singleton_self _)
      obtain ⟨event, opening, same⟩ := List.mem_map.mp mem
      cases same
      simp [openingEvents] at opening

end Documents

section Sample

attribute [local instance] asciiUnicode noJson coreF64

/-- A client that asks for a document, sends nothing, and is handed the layout and the document. -/
def sampleDocumented : List (Event Signal) :=
  [.enter, .act 0 (.hear (some (.message ⟨some (.options { sampleRequest with emitDocument := true })⟩))),
    .act 0 (.send false), .act 0 (.hear none), .act 0 (.send false), .act 0 (.send false),
    .act 0 (.poll true), .act 0 (.resume true true), .act 0 (.resume true true),
    .act 0 (.resume true true), .act 0 (.poll true)]

theorem documents_add_up_sample :
    ∃ conn document, (sampleService.connect (fun _ => 2) sampleDocumented).components[0]? = some conn ∧
      conn.response.handed[1]? = some (Pb.Event.item (.document document)) ∧ conn.Documented := by
  refine ⟨_, _, rfl, rfl, ?_⟩
  apply documents_add_up (fun _ => 2) sampleService sampleDocumented
  exact List.mem_of_getElem? (i := 0) rfl

end Sample

end GrpcEbcdic
