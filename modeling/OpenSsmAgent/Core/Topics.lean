import OpenSsmAgent.Core.Domain

/-!
# Topics

The topic scheme of {lit}`osa-core/src/topics.rs`: every topic of a host lies
under its tenant prefix, and the coordinator recognises an uplink topic by its
tail.

Main results:

- Theorem {lit}`parse_tenant`: a host's tenant parses back to the host.
- Theorem {lit}`tenant_injective`: different hosts have different tenants.
-/

open Framing

namespace OpenSsmAgent
namespace Topics

open Domain

/-- The broker tenant of a host: its text without hyphens. -/
def tenant (hostId : String) : String :=
  String.ofList (hostId.toList.filter (· ≠ '-'))

/-- What every topic of a host begins with. -/
def tenantPrefix (hostId : String) : String :=
  "/tenants/" ++ tenant hostId ++ "/"

/-- A topic of a host below the versioned root. -/
def topic (hostId tail : String) : String :=
  tenantPrefix hostId ++ "osa/v1" ++ tail

/-- {lit}`heartbeat`. -/
def heartbeat (hostId : String) : String := topic hostId "/up/heartbeat"

/-- {lit}`hs_up`. -/
def hsUp (hostId : String) : String := topic hostId "/up/hs"

/-- {lit}`hs_down`. -/
def hsDown (hostId : String) : String := topic hostId "/down/hs"

/-- {lit}`ctrl_up`. -/
def ctrlUp (hostId : String) : String := topic hostId "/up/ctrl"

/-- {lit}`ctrl_down`. -/
def ctrlDown (hostId : String) : String := topic hostId "/down/ctrl"

/-- {lit}`dispatch_down`. -/
def dispatchDown (hostId : String) : String := topic hostId "/down/dispatch"

/-- {lit}`result_up`. -/
def resultUp (hostId : String) : String := topic hostId "/up/result"

/-- {lit}`stream_down`. -/
def streamDown (hostId : String) : String := topic hostId "/down/stream"

/-- {lit}`stream_up`. -/
def streamUp (hostId : String) : String := topic hostId "/up/stream"

/-- {lit}`inventory_up`. -/
def inventoryUp (hostId : String) : String := topic hostId "/up/inventory"

/-- {lit}`split_once('/')`. -/
def splitOnceSlash (cs : List Char) : Option (List Char × List Char) :=
  match cs.span (· ≠ '/') with
  | (front, _ :: rest) => some (front, rest)
  | (_, []) => none

/-- {lit}`tenant_for_tail`. -/
def tenantForTail (topic tail : String) : Option String :=
  match topic.toList.dropPrefix? "/tenants/".toList with
  | none => none
  | some rest =>
      match splitOnceSlash rest with
      | none => none
      | some (tenant, restTail) =>
          if restTail = tail.toList ∧ tenant ≠ [] then some (String.ofList tenant) else none

/-- {lit}`tenant_from_heartbeat`. -/
def tenantFromHeartbeat (topic : String) : Option String :=
  tenantForTail topic "osa/v1/up/heartbeat"

/-- {lit}`tenant_from_hs_up`. -/
def tenantFromHsUp (topic : String) : Option String :=
  tenantForTail topic "osa/v1/up/hs"

/-- {lit}`tenant_from_ctrl_up`. -/
def tenantFromCtrlUp (topic : String) : Option String :=
  tenantForTail topic "osa/v1/up/ctrl"

/-- {lit}`tenant_from_result_up`. -/
def tenantFromResultUp (topic : String) : Option String :=
  tenantForTail topic "osa/v1/up/result"

/-- {lit}`tenant_from_stream_up`. -/
def tenantFromStreamUp (topic : String) : Option String :=
  tenantForTail topic "osa/v1/up/stream"

/-- {lit}`tenant_from_inventory_up`. -/
def tenantFromInventoryUp (topic : String) : Option String :=
  tenantForTail topic "osa/v1/up/inventory"

/-- The tenant of a host is its text without hyphens. -/
theorem tenant_toStr (h : HostId) :
    tenant h.toStr.text = String.ofList h.uuid.simpleChars := by
  simp only [tenant, HostId.toStr, String.toList_ofList, Uuid.hyphenatedChars]
  rw [Uuid.filter_hyphenate (h.uuid.simpleChars_ne rfl)]

/-- A host's tenant parses back to the host. -/
@[simp] theorem parse_tenant (h : HostId) : HostId.parse (tenant h.toStr.text) = some h := by
  simp [tenant_toStr, HostId.parse, Uuid.parse_simple]

/-- Different hosts have different tenants. -/
theorem tenant_injective {g h : HostId} (heq : tenant g.toStr.text = tenant h.toStr.text) :
    g = h := by
  have hparse : HostId.parse (tenant g.toStr.text) = HostId.parse (tenant h.toStr.text) := by
    rw [heq]
  simpa using hparse

/-- The first slash is found. -/
theorem splitOnceSlash_append {front rest : List Char} (h : ∀ c ∈ front, c ≠ '/') :
    splitOnceSlash (front ++ '/' :: rest) = some (front, rest) := by
  have hspan : (front ++ '/' :: rest).span (· ≠ '/') = (front, '/' :: rest) := by
    rw [List.span_eq_takeWhile_dropWhile, List.takeWhile_append_of_pos,
      List.dropWhile_append_of_pos]
    · simp
    · simpa using h
    · simpa using h
  simp only [splitOnceSlash, hspan]

/-- A tenant holds no slash. -/
theorem slash_notMem_tenant (h : HostId) : ∀ c ∈ (tenant h.toStr.text).toList, c ≠ '/' := by
  rw [tenant_toStr, String.toList_ofList]
  exact h.uuid.simpleChars_ne rfl

/-- The coordinator reads a host's topic back to the host's tenant and the tail. -/
theorem tenantForTail_topic (h : HostId) (tail tail' : String) :
    tenantForTail (topic h.toStr.text tail) tail' =
      if "osa/v1" ++ tail = tail' then some (tenant h.toStr.text) else none := by
  have htopic : (topic h.toStr.text tail).toList =
      "/tenants/".toList ++ ((tenant h.toStr.text).toList ++ '/' :: ("osa/v1" ++ tail).toList) := by
    simp [topic, tenantPrefix]
  have hne : (tenant h.toStr.text).toList ≠ [] := by
    rw [tenant_toStr, String.toList_ofList]
    intro hnil
    have hlen := h.uuid.length_simpleChars
    rw [hnil] at hlen
    cases hlen
  rw [tenantForTail, htopic, List.dropPrefix?_append_of_beq _ (by simp)]
  simp only [splitOnceSlash_append (slash_notMem_tenant h), String.ofList_toList]
  by_cases htail : "osa/v1" ++ tail = tail'
  · subst htail
    simp [hne]
  · have hchars : ("osa/v1" ++ tail).toList ≠ tail'.toList := by
      intro heq
      exact htail (String.toList_injective heq)
    rw [if_neg htail, if_neg]
    exact fun hboth => hchars hboth.1

/-- A topic has one tenant and one tail. -/
theorem tenantForTail_unique {topic tail tail' tenant tenant' : String}
    (h : tenantForTail topic tail = some tenant) (h' : tenantForTail topic tail' = some tenant') :
    tail = tail' ∧ tenant = tenant' := by
  unfold tenantForTail at h h'
  cases hdrop : topic.toList.dropPrefix? "/tenants/".toList with
  | none =>
      rw [hdrop] at h
      cases h
  | some rest =>
      simp only [hdrop] at h h'
      cases hsplit : splitOnceSlash rest with
      | none =>
          rw [hsplit] at h
          cases h
      | some parts =>
          simp only [hsplit, Option.ite_none_right_eq_some] at h h'
          exact ⟨String.toList_injective (h.1.1.symm.trans h'.1.1),
            Option.some.inj (h.2.symm.trans h'.2)⟩

/-- No topic has two tails. -/
theorem tenantForTail_of_ne {topic tail tail' tenant : String}
    (h : tenantForTail topic tail = some tenant) (hne : tail ≠ tail') :
    tenantForTail topic tail' = none := by
  refine Option.eq_none_iff_forall_ne_some.mpr ?_
  intro tenant' h'
  exact hne (tenantForTail_unique h h').1

/-- The topics of a host differ in their tails. -/
theorem topic_tail_inj {hostId tail tail' : String}
    (heq : topic hostId tail = topic hostId tail') : tail = tail' := by
  have hlist := congrArg String.toList heq
  simp only [topic, String.toList_append] at hlist
  exact String.toList_injective (List.append_cancel_left hlist)

/-- A topic belongs to one host and has one tail. -/
theorem topic_inj {g h : HostId} {tail tail' : String}
    (heq : topic g.toStr.text tail = topic h.toStr.text tail') : g = h ∧ tail = tail' := by
  have hleft : tenantForTail (topic g.toStr.text tail) ("osa/v1" ++ tail) =
      some (tenant g.toStr.text) := by
    rw [tenantForTail_topic, if_pos rfl]
  have hright : tenantForTail (topic g.toStr.text tail) ("osa/v1" ++ tail') =
      some (tenant h.toStr.text) := by
    rw [heq, tenantForTail_topic, if_pos rfl]
  obtain ⟨htail, htenant⟩ := tenantForTail_unique hleft hright
  refine ⟨tenant_injective htenant, ?_⟩
  have hlist := congrArg String.toList htail
  simp only [String.toList_append] at hlist
  exact String.toList_injective (List.append_cancel_left hlist)

end Topics
end OpenSsmAgent
