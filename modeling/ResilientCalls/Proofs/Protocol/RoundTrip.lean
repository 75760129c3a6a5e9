import ResilientCalls.Protocol.Wire
import ResilientCalls.Proofs.Document.Faithful
/-!
# The JSON form of the protocol is stable

What a JSON text says of a request, an answer, a part of one or a status,
in whatever form it says it, is written in one form, and this is read as
the same value: `json_stable`. All that is assumed is that the reals in
free forms are read back from their texts; JSON's reals are not read to the
nearest number, so not every real is.

There is one lemma for each type, all of one shape. Its fields are read
back one by one; then the written entries are fields of the record in their
declared order, each is found under its name, and each has a text.
-/

namespace ResilientCalls

open Reader Record

/-! ## Codes and statuses -/

theorem Code.faithful : Faithful 0 Code.read fun c => .text c.name := fun _ _ c _ _ _ =>
  ⟨by cases c <;> rfl, trivial, by simp⟩

namespace Status

theorem faithful : Faithful 1 read write := by
  refine Record.faithful (by decide) fun {r s} hr h => ?_
  obtain ⟨code, hcode, h⟩ := hr.need Code.faithful (by decide) h
  obtain ⟨message, hmessage, h⟩ := hr.need faithful_text (by decide) h
  obtain ⟨detailsType, hdetailsType, h⟩ := hr.optional faithful_text (by decide) h
  cases h
  refine ⟨?_, ?_, ?_⟩
  · cases detailsType <;> simp [entryIfSome]
  · simp [need_of_kept hcode, need_of_kept hmessage, get_of_optional hdetailsType, List.lookup_cons,
      lookup_entryIfSome]
  · simp only [List.forall_mem_append, List.forall_mem_cons]
    exact ⟨⟨hcode.isKept, hmessage.isKept, List.forall_mem_nil _⟩,
      isKept_entryIfSome hdetailsType⟩

end Status

/-! ## Parts of payloads -/

namespace Execution

theorem faithful : Faithful 1 read write := by
  refine Record.faithful (by decide) fun {r e} hr h => ?_
  obtain ⟨workflowId, hworkflowId, h⟩ := hr.need faithful_text (by decide) h
  obtain ⟨runId, hrunId, h⟩ := hr.optional faithful_text (by decide) h
  cases h
  refine ⟨?_, ?_, ?_⟩
  · cases runId <;> simp [entryIfSome]
  · simp [need_of_kept hworkflowId, get_of_optional hrunId, List.lookup_cons, lookup_entryIfSome]
  · simp only [List.forall_mem_append, List.forall_mem_cons]
    exact ⟨⟨hworkflowId.isKept, List.forall_mem_nil _⟩, isKept_entryIfSome hrunId⟩

theorem write_ne_null (e : Execution) : e.write ≠ .null := nofun

end Execution

namespace HistoryEvent

theorem faithful : Faithful 1 read write := by
  refine Record.faithful (by decide) fun {r e} hr h => ?_
  obtain ⟨eventId, heventId, h⟩ := hr.need faithful_int64 (by decide) h
  obtain ⟨eventType, heventType, h⟩ := hr.need faithful_text (by decide) h
  obtain ⟨attributes, hattributes, h⟩ := hr.get faithful_freeForm (by decide) (kept_null hr.depth) h
  cases h
  refine ⟨.refl _, ?_, ?_⟩
  · simp [need_of_kept heventId, need_of_kept heventType, get_of_kept hattributes, List.lookup_cons]
  · simp only [List.forall_mem_cons]
    exact ⟨heventId.isKept, heventType.isKept, hattributes.isKept, List.forall_mem_nil _⟩

end HistoryEvent

namespace Command

theorem faithful : Faithful 1 read write := by
  refine Record.faithful (by decide) fun {r c} hr h => ?_
  obtain ⟨commandType, hcommandType, h⟩ := hr.need faithful_text (by decide) h
  obtain ⟨attributes, hattributes, h⟩ := hr.get faithful_freeForm (by decide) (kept_null hr.depth) h
  cases h
  refine ⟨.refl _, ?_, ?_⟩
  · simp [need_of_kept hcommandType, get_of_kept hattributes, List.lookup_cons]
  · simp only [List.forall_mem_cons]
    exact ⟨hcommandType.isKept, hattributes.isKept, List.forall_mem_nil _⟩

end Command

/-! ## Requests -/

namespace DescribeRequest

theorem faithful : Faithful 1 read write := by
  refine Record.faithful (by decide) fun {r q} hr h => ?_
  obtain ⟨nspace, hnspace, h⟩ := hr.need faithful_text (by decide) h
  cases h
  refine ⟨.refl _, ?_, ?_⟩
  · simp [need_of_kept hnspace]
  · simp only [List.forall_mem_cons]
    exact ⟨hnspace.isKept, List.forall_mem_nil _⟩

end DescribeRequest

namespace StartRequest

theorem faithful : Faithful 2 read write := by
  refine Record.faithful (by decide) fun {r q} hr h => ?_
  obtain ⟨nspace, hnspace, h⟩ := hr.need faithful_text (by decide) h
  obtain ⟨workflowId, hworkflowId, h⟩ := hr.need faithful_text (by decide) h
  obtain ⟨workflowType, hworkflowType, h⟩ := hr.need faithful_text (by decide) h
  obtain ⟨taskQueue, htaskQueue, h⟩ := hr.need faithful_text (by decide) h
  obtain ⟨input, hinput, h⟩ := hr.get faithful_freeForms (by decide) (kept_freeForms_nil _) h
  obtain ⟨identity, hidentity, h⟩ := hr.get faithful_text (by decide) (kept_text _ _) h
  obtain ⟨requestId, hrequestId, h⟩ := hr.need faithful_text (by decide) h
  cases h
  refine ⟨.refl _, ?_, ?_⟩
  · simp [need_of_kept hnspace, need_of_kept hworkflowId, need_of_kept hworkflowType,
      need_of_kept htaskQueue, get_of_kept hinput, get_of_kept hidentity, need_of_kept hrequestId,
      List.lookup_cons]
  · simp only [List.forall_mem_cons]
    exact ⟨hnspace.isKept, hworkflowId.isKept, hworkflowType.isKept, htaskQueue.isKept,
      hinput.isKept, hidentity.isKept, hrequestId.isKept, List.forall_mem_nil _⟩

end StartRequest

namespace SignalRequest

theorem faithful : Faithful 2 read write := by
  refine Record.faithful (by decide) fun {r q} hr h => ?_
  obtain ⟨nspace, hnspace, h⟩ := hr.need faithful_text (by decide) h
  obtain ⟨execution, hexecution, h⟩ := hr.need Execution.faithful (by decide) h
  obtain ⟨signalName, hsignalName, h⟩ := hr.need faithful_text (by decide) h
  obtain ⟨input, hinput, h⟩ := hr.get faithful_freeForms (by decide) (kept_freeForms_nil _) h
  obtain ⟨identity, hidentity, h⟩ := hr.get faithful_text (by decide) (kept_text _ _) h
  obtain ⟨requestId, hrequestId, h⟩ := hr.need faithful_text (by decide) h
  cases h
  refine ⟨.refl _, ?_, ?_⟩
  · simp [need_of_kept hnspace, need_of_kept hexecution, need_of_kept hsignalName,
      get_of_kept hinput, get_of_kept hidentity, need_of_kept hrequestId, List.lookup_cons]
  · simp only [List.forall_mem_cons]
    exact ⟨hnspace.isKept, hexecution.isKept, hsignalName.isKept, hinput.isKept, hidentity.isKept,
      hrequestId.isKept, List.forall_mem_nil _⟩

end SignalRequest

namespace HistoryRequest

theorem faithful : Faithful 2 read write := by
  refine Record.faithful (by decide) fun {r q} hr h => ?_
  obtain ⟨nspace, hnspace, h⟩ := hr.need faithful_text (by decide) h
  obtain ⟨execution, hexecution, h⟩ := hr.need Execution.faithful (by decide) h
  obtain ⟨pageSize, hpageSize, h⟩ :=
    hr.get (faithful_count (by decide)) (by decide) (kept_zero (by decide) _) h
  obtain ⟨pageToken, hpageToken, h⟩ := hr.optional faithful_text (by decide) h
  obtain ⟨waitNewEvent, hwaitNewEvent, h⟩ :=
    hr.get faithful_boolean (by decide) (kept_boolean _ _) h
  cases h
  refine ⟨?_, ?_, ?_⟩
  · cases pageToken <;> simp [entryIfSome]
  · simp [need_of_kept hnspace, need_of_kept hexecution, get_of_kept hpageSize,
      get_of_optional hpageToken, get_of_kept hwaitNewEvent, List.lookup_cons, List.lookup_append,
      lookup_entryIfSome]
  · simp only [List.forall_mem_append, List.forall_mem_cons]
    exact ⟨⟨⟨hnspace.isKept, hexecution.isKept, hpageSize.isKept, List.forall_mem_nil _⟩,
      isKept_entryIfSome hpageToken⟩, hwaitNewEvent.isKept, List.forall_mem_nil _⟩

end HistoryRequest

namespace PollRequest

theorem faithful : Faithful 1 read write := by
  refine Record.faithful (by decide) fun {r q} hr h => ?_
  obtain ⟨nspace, hnspace, h⟩ := hr.need faithful_text (by decide) h
  obtain ⟨taskQueue, htaskQueue, h⟩ := hr.need faithful_text (by decide) h
  obtain ⟨identity, hidentity, h⟩ := hr.get faithful_text (by decide) (kept_text _ _) h
  cases h
  refine ⟨.refl _, ?_, ?_⟩
  · simp [need_of_kept hnspace, need_of_kept htaskQueue, get_of_kept hidentity, List.lookup_cons]
  · simp only [List.forall_mem_cons]
    exact ⟨hnspace.isKept, htaskQueue.isKept, hidentity.isKept, List.forall_mem_nil _⟩

end PollRequest

namespace CompleteRequest

theorem faithful : Faithful 3 read write := by
  refine Record.faithful (by decide) fun {r q} hr h => ?_
  obtain ⟨nspace, hnspace, h⟩ := hr.need faithful_text (by decide) h
  obtain ⟨taskToken, htaskToken, h⟩ := hr.need faithful_text (by decide) h
  obtain ⟨commands, hcommands, h⟩ := hr.get Command.faithful.list (by decide) (kept_nil _) h
  obtain ⟨identity, hidentity, h⟩ := hr.get faithful_text (by decide) (kept_text _ _) h
  cases h
  refine ⟨.refl _, ?_, ?_⟩
  · simp [need_of_kept hnspace, need_of_kept htaskToken, get_of_kept hcommands,
      get_of_kept hidentity, List.lookup_cons]
  · simp only [List.forall_mem_cons]
    exact ⟨hnspace.isKept, htaskToken.isKept, hcommands.isKept, hidentity.isKept,
      List.forall_mem_nil _⟩

end CompleteRequest

/-! ## Answers -/

namespace DescribeAnswer

theorem faithful : Faithful 1 read write := by
  refine Record.faithful (by decide) fun {r a} hr h => ?_
  obtain ⟨nspace, hnspace, h⟩ := hr.need faithful_text (by decide) h
  obtain ⟨state, hstate, h⟩ := hr.need faithful_text (by decide) h
  obtain ⟨retentionDays, hretentionDays, h⟩ :=
    hr.get (faithful_count (by decide)) (by decide) (kept_zero (by decide) _) h
  cases h
  refine ⟨.refl _, ?_, ?_⟩
  · simp [need_of_kept hnspace, need_of_kept hstate, get_of_kept hretentionDays, List.lookup_cons]
  · simp only [List.forall_mem_cons]
    exact ⟨hnspace.isKept, hstate.isKept, hretentionDays.isKept, List.forall_mem_nil _⟩

end DescribeAnswer

namespace StartAnswer

theorem faithful : Faithful 1 read write := by
  refine Record.faithful (by decide) fun {r a} hr h => ?_
  obtain ⟨runId, hrunId, h⟩ := hr.need faithful_text (by decide) h
  cases h
  refine ⟨.refl _, ?_, ?_⟩
  · simp [need_of_kept hrunId]
  · simp only [List.forall_mem_cons]
    exact ⟨hrunId.isKept, List.forall_mem_nil _⟩

end StartAnswer

theorem SignalAnswer.faithful : Faithful 1 SignalAnswer.read SignalAnswer.write :=
  fun _ _ _ _ _ _ => ⟨rfl, trivial⟩

namespace HistoryAnswer

theorem faithful : Faithful 3 read write := by
  refine Record.faithful (by decide) fun {r a} hr h => ?_
  obtain ⟨events, hevents, h⟩ := hr.get HistoryEvent.faithful.list (by decide) (kept_nil _) h
  obtain ⟨pageToken, hpageToken, h⟩ := hr.optional faithful_text (by decide) h
  cases h
  refine ⟨?_, ?_, ?_⟩
  · cases pageToken <;> simp [entryIfSome]
  · simp [get_of_kept hevents, get_of_optional hpageToken, List.lookup_cons, lookup_entryIfSome]
  · simp only [List.forall_mem_append, List.forall_mem_cons]
    exact ⟨⟨hevents.isKept, List.forall_mem_nil _⟩, isKept_entryIfSome hpageToken⟩

end HistoryAnswer

namespace PollAnswer

theorem faithful : Faithful 3 read write := by
  refine Record.faithful (by decide) fun {r a} hr h => ?_
  obtain ⟨taskToken, htaskToken, h⟩ := hr.get faithful_text (by decide) (kept_text _ _) h
  obtain ⟨execution, hexecution, h⟩ := hr.optional Execution.faithful (by decide) h
  obtain ⟨workflowType, hworkflowType, h⟩ := hr.get faithful_text (by decide) (kept_text _ _) h
  obtain ⟨history, hhistory, h⟩ := hr.get HistoryEvent.faithful.list (by decide) (kept_nil _) h
  obtain ⟨attempt, hattempt, h⟩ :=
    hr.get (faithful_count (by decide)) (by decide) (kept_zero (by decide) _) h
  cases h
  refine ⟨?_, ?_, ?_⟩
  · cases execution <;> simp [entryIfSome]
  · simp [get_of_kept htaskToken, get_of_optional hexecution Execution.write_ne_null,
      get_of_kept hworkflowType, get_of_kept hhistory, get_of_kept hattempt, List.lookup_cons,
      List.lookup_append, lookup_entryIfSome]
  · simp only [List.forall_mem_append, List.forall_mem_cons]
    exact ⟨⟨⟨htaskToken.isKept, List.forall_mem_nil _⟩, isKept_entryIfSome hexecution⟩,
      hworkflowType.isKept, hhistory.isKept, hattempt.isKept, List.forall_mem_nil _⟩

end PollAnswer

theorem CompleteAnswer.faithful : Faithful 1 CompleteAnswer.read CompleteAnswer.write :=
  fun _ _ _ _ _ _ => ⟨rfl, trivial⟩

/-! ## All types -/

/-- The types that are sent, received or parts of what is. -/
inductive PayloadType where
  | status | execution | historyEvent | command
  | describeRequest | startRequest | signalRequest | historyRequest | pollRequest | completeRequest
  | describeAnswer | startAnswer | signalAnswer | historyAnswer | pollAnswer | completeAnswer
deriving DecidableEq

namespace PayloadType

/-- The values of a type. -/
def Value : PayloadType → Type
  | .status => Status
  | .execution => Execution
  | .historyEvent => HistoryEvent
  | .command => Command
  | .describeRequest => DescribeRequest
  | .startRequest => StartRequest
  | .signalRequest => SignalRequest
  | .historyRequest => HistoryRequest
  | .pollRequest => PollRequest
  | .completeRequest => CompleteRequest
  | .describeAnswer => DescribeAnswer
  | .startAnswer => StartAnswer
  | .signalAnswer => SignalAnswer
  | .historyAnswer => HistoryAnswer
  | .pollAnswer => PollAnswer
  | .completeAnswer => CompleteAnswer

instance : (t : PayloadType) → Wire t.Value
  | .status => inferInstanceAs (Wire Status)
  | .execution => inferInstanceAs (Wire Execution)
  | .historyEvent => inferInstanceAs (Wire HistoryEvent)
  | .command => inferInstanceAs (Wire Command)
  | .describeRequest => inferInstanceAs (Wire DescribeRequest)
  | .startRequest => inferInstanceAs (Wire StartRequest)
  | .signalRequest => inferInstanceAs (Wire SignalRequest)
  | .historyRequest => inferInstanceAs (Wire HistoryRequest)
  | .pollRequest => inferInstanceAs (Wire PollRequest)
  | .completeRequest => inferInstanceAs (Wire CompleteRequest)
  | .describeAnswer => inferInstanceAs (Wire DescribeAnswer)
  | .startAnswer => inferInstanceAs (Wire StartAnswer)
  | .signalAnswer => inferInstanceAs (Wire SignalAnswer)
  | .historyAnswer => inferInstanceAs (Wire HistoryAnswer)
  | .pollAnswer => inferInstanceAs (Wire PollAnswer)
  | .completeAnswer => inferInstanceAs (Wire CompleteAnswer)

/-- No type opens more than three containers around a free form. -/
theorem faithful (t : PayloadType) : Faithful 3 (Wire.read (α := t.Value)) Wire.write :=
  match t with
  | .status => Status.faithful.mono (by decide)
  | .execution => Execution.faithful.mono (by decide)
  | .historyEvent => HistoryEvent.faithful.mono (by decide)
  | .command => Command.faithful.mono (by decide)
  | .describeRequest => DescribeRequest.faithful.mono (by decide)
  | .startRequest => StartRequest.faithful.mono (by decide)
  | .signalRequest => SignalRequest.faithful.mono (by decide)
  | .historyRequest => HistoryRequest.faithful.mono (by decide)
  | .pollRequest => PollRequest.faithful.mono (by decide)
  | .completeRequest => CompleteRequest.faithful.mono (by decide)
  | .describeAnswer => DescribeAnswer.faithful.mono (by decide)
  | .startAnswer => StartAnswer.faithful.mono (by decide)
  | .signalAnswer => SignalAnswer.faithful.mono (by decide)
  | .historyAnswer => HistoryAnswer.faithful.mono (by decide)
  | .pollAnswer => PollAnswer.faithful.mono (by decide)
  | .completeAnswer => CompleteAnswer.faithful.mono (by decide)

end PayloadType

/-- **The JSON form is stable.** If a text is read as a value of any of the
types, the text that is written of the value is read as the same value
again, and the same text is written of that. -/
theorem json_stable (t : PayloadType) {text : String} {v : t.Value}
    (hread : Wire.ofJson? text = some v) (hreals : (Wire.write v).Every Json.ReadsReal) :
    ∃ again : t.Value, Wire.ofJson? (Wire.toJson v) = some again ∧ again = v ∧
      Wire.toJson again = Wire.toJson v := by
  obtain ⟨node, hnode, hv⟩ := Option.bind_eq_some_iff.1 hread
  have hkept := t.faithful (by decide) (Json.holdsInteger_of_read? hnode) hv
  have hscalars : (Wire.write v).Every Json.Scalar :=
    hkept.isKept.imp₂ (fun _ hkept hreal => ⟨hkept, hreal⟩) hreals
  refine ⟨v, ?_, rfl, rfl⟩
  rw [Wire.ofJson?, Wire.toJson, Json.read?_print hscalars, Option.bind_some, hkept.again]

/-- A request to start a workflow, given as the sequence of its fields. -/
def startInSequence : String :=
  r#"["default", "order-1", "Order", "orders", [1.50e0, null], "", "r-1"]"#

theorem isSome_startInSequence :
    (Wire.ofJson? startInSequence : Option PayloadType.startRequest.Value).isSome := by
  decide +kernel

theorem json_stable_startInSequence : ∃ q : PayloadType.startRequest.Value,
    Wire.ofJson? startInSequence = some q ∧ (Wire.write q).Every Json.ReadsReal ∧
    Wire.toJson q ≠ startInSequence ∧
    ∃ again : PayloadType.startRequest.Value, Wire.ofJson? (Wire.toJson q) = some again ∧
      again = q ∧ Wire.toJson again = Wire.toJson q := by
  have hread := (Option.some_get isSome_startInSequence).symm
  have hreals :
      (Wire.write (Option.get _ isSome_startInSequence)).Every Json.ReadsReal := by
    decide +kernel
  exact ⟨_, hread, hreals, by decide +kernel, json_stable .startRequest hread hreals⟩

end ResilientCalls
