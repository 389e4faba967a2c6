import StepFlow.Proofs.Json.Flattened
import StepFlow.Proofs.Json.Settled
import StepFlow.Run.Event
import StepFlow.Workspace.Metadata

/-!
Published events are read back. The members of an event are written behind its tag, and behind app
and run where it is published; a reader tells them apart and puts them into their fields. Only what
is known of the app is an optional value of any form: where it is there but `null`, the text has a
member that reads as if there were none.
-/
namespace StepFlow.Run
open Json

def asRead : Option Json → Option Json
  | some .null => none
  | app => app

namespace Event

def values : Event → List Json
  | stateChanged _ => []
  | runStarted _ app => app.toList
  | stepStarted start => [start.startTime, start.inputs, start.stepInfo, start.stepMeta]
  | stepData data => [data.payload]
  | runEnded _ _ app => app.toList

def times : Event → List Int
  | runStarted startTime _ => [startTime]
  | runEnded endTime _ _ => [endTime]
  | _ => []

def app? : Event → Option Json
  | runStarted _ app => app
  | runEnded _ _ app => app
  | _ => none

def received : Event → Event
  | runStarted startTime app => runStarted startTime (asRead app)
  | runEnded endTime state app => runEnded endTime state (asRead app)
  | e => e

/-- Times have 64 bits, and free-form values have no doubles and nest at most 120 levels. -/
structure Sendable (e : Event) : Prop where
  free : ∀ j ∈ e.values, j.FreeForm
  exact : ∀ j ∈ e.values, j.Exact
  fits : ∀ j ∈ e.values, j.depth ≤ 120
  times : ∀ t ∈ e.times, -(2 ^ 63 : Int) ≤ t ∧ t < 2 ^ 63

end Event

section
variable {j : Json} {app : Option Json} {e : Event} {p : Event.Fields} {t : Int}
  {kind : Event.Kind} {ms : List (String × Json)}

theorem asRead_eq_iff : asRead app = app ↔ app ≠ some .null := by
  cases app with
  | none => simp [asRead]
  | some j => cases j <;> simp [asRead]

theorem received_eq_iff : e.received = e ↔ e.app? ≠ some .null := by
  cases e <;> simp [Event.received, Event.app?, asRead_eq_iff]

theorem any_restored (free : j.FreeForm) : Decoder.any.Restores id j :=
  congrArg Except.ok (settle_of_free j free)

theorem int_restored (small : t < 2 ^ 63) : Decoder.int.ofJson (.num (.int t)) = .ok t := by
  simpa [Decoder.int, Decoder.buffered] using small

theorem app_restored (free : j.FreeForm) :
    (Decoder.option .any).ofJson j = .ok (asRead (some j)) := by
  by_cases absent : j = .null
  · rw [absent]
    rfl
  · rw [option_some absent (any_restored free), asRead_eq_iff.mpr (by simpa using absent)]

theorem app_put (member : kind.record.fields.contains "meta" = true) (none : p.app = none)
    (free : ∀ j ∈ app.toList, j.FreeForm) :
    kind.record.putMembers Event.Fields.slot p (Json.optional "meta" id app) =
      .ok { p with app := app.map fun j => asRead (some j) } := by
  cases app with
  | none =>
    rw [Option.map_none, ← none]
    rfl
  | some j =>
    have slot : p.slot "meta" = once "meta" p.app (.option .any)
        fun a => { p with app := some a } := rfl
    have put : (p.slot "meta").put p j = .ok { p with app := some (asRead (some j)) } := by
      rw [slot, none]
      exact put_once "meta" (app_restored (free j (by simp)))
    have last : kind.record.putMembers Event.Fields.slot p [("meta", j)] =
        kind.record.putMembers Event.Fields.slot { p with app := some (asRead (some j)) } [] :=
      putMembers_known member put
    exact last

theorem asRead_join (app : Option Json) : (app.map fun j => asRead (some j)).join = asRead app := by
  cases app <;> rfl

/-- An event is written as its kind and the members that its content is decoded from. -/
structure Written (e : Event) (name : String) (kind : Event.Kind) (ms : List (String × Json)) :
    Prop where
  members : e.members = (Event.Kind.tagging.tag, .str name) :: ms
  known : Event.Kind.tagging.kinds.lookup name = some kind
  others : ∀ m ∈ ms, m.1 ≠ Event.Kind.tagging.tag
  foreign : ∀ m ∈ ms, PublishedEvent.record.fields.contains m.1 = false
  decoded : (Event.contentDecoder kind).ofJson (.obj ms) = .ok e.received

theorem state_restored (state : State) :
    (Decoder.variant State.names none).Restores (fun s => .str s.name) state := by
  cases state <;> rfl

theorem code_restored (code : StepCode) :
    (Decoder.variant StepCode.names none).Restores (fun c => .str c.name) code := by
  cases code <;> rfl

theorem stateChanged_written (state : State) : ∃ ms,
    Written (.stateChanged state) "state_changed" .stateChanged ms := by
  refine ⟨_, rfl, rfl, by simp [Event.Kind.tagging], by simp [PublishedEvent.record], ?_⟩
  cases state <;> rfl

theorem runStarted_written (sendable : (Event.runStarted t app).Sendable) : ∃ ms,
    Written (.runStarted t app) "run_started" .runStarted ms := by
  refine ⟨("start_time", .num (.int t)) :: Json.optional "meta" id app, rfl, rfl, ?_, ?_, ?_⟩
  · cases app <;> simp [Event.Kind.tagging, Json.optional]
  · cases app <;> simp [PublishedEvent.record, Json.optional]
  · simp only [Event.contentDecoder, Record.decoder]
    rw [putMembers_known rfl (put_once "start_time"
        (int_restored (sendable.times t List.mem_cons_self).2)),
      app_put rfl rfl sendable.free]
    simp only [bind, Except.bind, Event.Fields.finish, Record.require, asRead_join]
    rfl

theorem runEnded_written {state : State} (sendable : (Event.runEnded t state app).Sendable) : ∃ ms,
    Written (.runEnded t state app) "run_ended" .runEnded ms := by
  refine ⟨("end_time", .num (.int t)) :: ("state", .str state.name) ::
    Json.optional "meta" id app, rfl, rfl, ?_, ?_, ?_⟩
  · cases app <;> simp [Event.Kind.tagging, Json.optional]
  · cases app <;> simp [PublishedEvent.record, Json.optional]
  · simp only [Event.contentDecoder, Record.decoder]
    rw [putMembers_known rfl (put_once "end_time"
        (int_restored (sendable.times t List.mem_cons_self).2)),
      putMembers_known rfl (put_once "state" (state_restored state)),
      app_put rfl rfl sendable.free]
    simp only [bind, Except.bind, Event.Fields.finish, Record.require, asRead_join]
    rfl

theorem stepStarted_written {start : StepStart} (sendable : (Event.stepStarted start).Sendable) :
    ∃ ms, Written (.stepStarted start) "step_started" .stepStarted ms := by
  obtain ⟨startTime, inputs, info, own⟩ := start
  refine ⟨_, rfl, rfl, ?_, ?_, ?_⟩
  · simp [Event.Kind.tagging, StepStart.members]
  · simp [PublishedEvent.record, StepStart.members]
  · have free := sendable.free
    simp only [Event.values, List.forall_mem_cons] at free
    simp only [Event.contentDecoder, Record.decoder, StepStart.members]
    rw [putMembers_known rfl (put_once "startTime" (any_restored free.1)),
      putMembers_known rfl (put_once "inputs" (any_restored free.2.1)),
      putMembers_known rfl (put_once "stepInfo" (any_restored free.2.2.1)),
      putMembers_known rfl (put_once "stepMeta" (any_restored free.2.2.2.1))]
    rfl

theorem stepData_written {data : StepData} (sendable : (Event.stepData data).Sendable) :
    ∃ ms, Written (.stepData data) "step_data" .stepData ms := by
  obtain ⟨code, payload⟩ := data
  refine ⟨_, rfl, rfl, ?_, ?_, ?_⟩
  · simp [Event.Kind.tagging, StepData.members]
  · simp [PublishedEvent.record, StepData.members]
  · have free := sendable.free payload List.mem_cons_self
    simp only [Event.contentDecoder, Record.decoder, StepData.members]
    rw [putMembers_known rfl (put_once "code" (code_restored code)),
      putMembers_known rfl (put_once "payload" (any_restored free))]
    rfl

theorem event_written (sendable : e.Sendable) : ∃ name kind ms, Written e name kind ms := by
  cases e with
  | stateChanged state => exact ⟨_, _, stateChanged_written state⟩
  | runStarted startTime app => exact ⟨_, _, runStarted_written sendable⟩
  | stepStarted start => exact ⟨_, _, stepStarted_written sendable⟩
  | stepData data => exact ⟨_, _, stepData_written sendable⟩
  | runEnded endTime state app => exact ⟨_, _, runEnded_written sendable⟩

theorem member_values {m : String × Json} (member : m ∈ e.members) :
    (∃ text, m.2 = .str text) ∨ (∃ t ∈ e.times, m.2 = .num (.int t)) ∨ m.2 ∈ e.values := by
  cases e with
  | stateChanged state =>
    simp only [Event.members, List.mem_cons, List.not_mem_nil, or_false] at member
    rcases member with rfl | rfl <;> exact Or.inl ⟨_, rfl⟩
  | runStarted startTime app =>
    cases app <;> simp [Event.members, Json.optional] at member <;>
      rcases member with rfl | rfl | rfl <;> simp [Event.times, Event.values]
  | stepStarted start =>
    simp [Event.members, StepStart.members] at member
    rcases member with rfl | rfl | rfl | rfl | rfl <;> simp [Event.values]
  | stepData data =>
    simp [Event.members, StepData.members] at member
    rcases member with rfl | rfl | rfl <;> simp [Event.values]
  | runEnded endTime state app =>
    cases app <;> simp [Event.members, Json.optional] at member <;>
      rcases member with rfl | rfl | rfl | rfl <;> simp [Event.times, Event.values]

theorem members_exact (sendable : e.Sendable) : ExactMembers e.members := by
  refine exactMembers_iff.mpr fun m member => ?_
  rcases member_values member with ⟨text, same⟩ | ⟨t, time, same⟩ | value
  · rw [same]
    trivial
  · obtain ⟨least, most⟩ := sendable.times t time
    rw [same]
    exact ⟨least, by omega⟩
  · exact sendable.exact _ value

theorem members_fit (sendable : e.Sendable) : depthMembers e.members ≤ 120 := by
  refine depthMembers_le.mpr fun m member => ?_
  rcases member_values member with ⟨text, same⟩ | ⟨t, time, same⟩ | value
  · rw [same]
    exact Nat.zero_le 120
  · rw [same]
    exact Nat.zero_le 120
  · exact sendable.fits _ value

theorem event_text (sendable : e.Sendable) :
    decodeText Event.decoder e.encode.compact = .ok e.received := by
  obtain ⟨name, kind, ms, written⟩ := event_written sendable
  have exact := members_exact sendable
  have fits := members_fit sendable
  rw [written.members] at exact fits
  rw [Event.encode, written.members]
  exact tagged_text written.known written.others exact.2
    (Nat.lt_of_le_of_lt (Nat.max_le.mp fits).2 (by decide)) written.decoded

theorem published_text (sendable : e.Sendable) (app run : String) :
    decodeText PublishedEvent.decoder (PublishedEvent.encode ⟨app, run, e⟩).compact =
      .ok ⟨app, run, e.received⟩ := by
  obtain ⟨name, kind, ms, written⟩ := event_written sendable
  have event : Event.decoder.ofJson (.obj e.members) = .ok e.received := by
    rw [written.members]
    exact tagged_restored written.known written.others written.decoded
  have fills : Fills (PublishedEvent.record.flatMember PublishedEvent.Partial.slot (maxDepth - 1))
      ({}, []) [("app_id", .str app), ("run_id", .str run)] (⟨some app, some run⟩, []) :=
    .cons (fun _ follows =>
        own_scanned rfl (once_scanned "app_id" (string_readsBack _ app) follows))
      (.cons (fun _ follows =>
        own_scanned rfl (once_scanned "run_id" (string_readsBack _ run) follows)) (.nil _))
  have foreign : ∀ m ∈ e.members, PublishedEvent.record.fields.contains m.1 = false := by
    rw [written.members, List.forall_mem_cons]
    exact ⟨rfl, written.foreign⟩
  refine flat_text fills foreign (members_exact sendable)
    (Nat.lt_of_le_of_lt (members_fit sendable) (by decide)) ?_
  simp only [PublishedEvent.Partial.finish, Record.require, event, bind, Except.bind]
  rfl

/-- What a reader gets of an event, alone and published. It is the same event just when the app is
not known as `null`. -/
structure ReadBack (e : Event) : Prop where
  event : decodeText Event.decoder e.encode.compact = .ok e.received
  published : ∀ app run,
    decodeText PublishedEvent.decoder (PublishedEvent.encode ⟨app, run, e⟩).compact =
      .ok ⟨app, run, e.received⟩
  same : decodeText Event.decoder e.encode.compact = .ok e ↔ e.app? ≠ some .null
  publishedSame : ∀ app run,
    decodeText PublishedEvent.decoder (PublishedEvent.encode ⟨app, run, e⟩).compact =
      .ok ⟨app, run, e⟩ ↔ e.app? ≠ some .null

/-- What can be sent is read back, but for metadata that is `null`. -/
theorem events_read_back (sendable : e.Sendable) : ReadBack e := by
  have event := event_text sendable
  have published := published_text sendable
  refine ⟨event, published, ?_, fun app run => ?_⟩
  · rw [event, ← received_eq_iff]
    simp
  · rw [published, ← received_eq_iff]
    simp

theorem fileMetadata_free {t : Workspace.FileTree} {root app : String}
    (known : Workspace.fileMetadata? t root app = some j) : j.FreeForm := by
  unfold Workspace.fileMetadata? at known
  split at known
  · cases known
  · rename_i contents _
    split at known
    · rename_i read
      cases known
      simp only [readSettled, Except.map] at read
      split at read
      · cases read
      · cases read
        exact settle_free _
    · cases known

def mutedTree : Workspace.FileTree :=
  ⟨[(["apps"], .directory), (["apps", "demo"], .directory),
    (["apps", "demo", "meta.json"], .file "null" false)], []⟩

theorem muted_sendable : (Event.runStarted 0 (some .null)).Sendable := by
  refine ⟨?_, ?_, ?_, ?_⟩
  · simp [Event.values, FreeForm]
  · simp [Event.values, Exact]
  · simp [Event.values, depth]
  · simp [Event.times]

theorem muted_event_changes : ∃ app, Workspace.fileMetadata? mutedTree "/apps" "demo" = some app ∧
    (Event.runStarted 0 (some app)).Sendable ∧
    decodeText Event.decoder (Event.runStarted 0 (some app)).encode.compact ≠
      .ok (.runStarted 0 (some app)) := by
  refine ⟨.null, rfl, muted_sendable, ?_⟩
  rw [event_text muted_sendable]
  simp [Event.received, asRead]

def namedEnd : Event := .runEnded 5 .timeout (some (.obj [("name", .str "Demo")]))

theorem namedEnd_read_back : namedEnd.Sendable ∧ ReadBack namedEnd := by
  have sendable : namedEnd.Sendable := by
    refine ⟨?_, ?_, ?_, ?_⟩
    · simp [namedEnd, Event.values, FreeForm, FreeMembers]
    · simp [namedEnd, Event.values, Exact, ExactMembers]
    · simp [namedEnd, Event.values, depth, depthMembers]
    · simp [namedEnd, Event.times]
  exact ⟨sendable, events_read_back sendable⟩

end

end StepFlow.Run
