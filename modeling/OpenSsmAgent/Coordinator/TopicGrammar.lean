import OpenSsmAgent.Coordinator.Issuance

/-!
# The topic grammar

The builders and extractors of {lit}`osa-core/src/topics.rs` taken together, with the
organization that the embedded CA writes into a host's certificate and by which the
broker confines the host.

Main results:

- Theorem {lit}`tenantForTail_eq_some_iff`: which topics an extractor recognises.
- Theorem {lit}`tenantPrefix_topic`: a topic lies under the prefix of its own host only.
- Theorem {lit}`topic_grammar`: builders, extractors, certificates and prefixes agree.
-/

namespace OpenSsmAgent
namespace Coordinator

open Domain Topics

/-! ## The channels -/

/-- The topics that a host publishes to. -/
inductive Uplink where
  | heartbeat
  | hs
  | ctrl
  | result
  | stream
  | inventory
deriving DecidableEq

/-- The topics that a host subscribes to. -/
inductive Downlink where
  | hs
  | ctrl
  | dispatch
  | stream
deriving DecidableEq

namespace Uplink

/-- The last part of the topic. -/
def tail : Uplink → String
  | heartbeat => "heartbeat"
  | hs => "hs"
  | ctrl => "ctrl"
  | result => "result"
  | stream => "stream"
  | inventory => "inventory"

/-- The builder of the topic. -/
def build : Uplink → String → String
  | heartbeat => Topics.heartbeat
  | hs => hsUp
  | ctrl => ctrlUp
  | result => resultUp
  | stream => streamUp
  | inventory => inventoryUp

/-- The extractor of the coordinator. -/
def extract : Uplink → String → Option String
  | heartbeat => tenantFromHeartbeat
  | hs => tenantFromHsUp
  | ctrl => tenantFromCtrlUp
  | result => tenantFromResultUp
  | stream => tenantFromStreamUp
  | inventory => tenantFromInventoryUp

theorem build_eq (u : Uplink) (hostId : String) :
    u.build hostId = topic hostId ("/up/" ++ u.tail) := by
  cases u <;> rfl

theorem extract_eq (u : Uplink) (text : String) :
    u.extract text = tenantForTail text ("osa/v1/up/" ++ u.tail) := by
  cases u <;> rfl

theorem tail_inj {u v : Uplink} (h : "osa/v1/up/" ++ u.tail = "osa/v1/up/" ++ v.tail) : u = v := by
  revert h
  cases u <;> cases v <;> decide

end Uplink

/-- The builder of the topic. -/
def Downlink.build : Downlink → String → String
  | .hs => hsDown
  | .ctrl => ctrlDown
  | .dispatch => dispatchDown
  | .stream => streamDown

/-- The last part of the topic. -/
def Downlink.tail : Downlink → String
  | .hs => "hs"
  | .ctrl => "ctrl"
  | .dispatch => "dispatch"
  | .stream => "stream"

theorem Downlink.build_eq (d : Downlink) (hostId : String) :
    d.build hostId = topic hostId ("/down/" ++ d.tail) := by
  cases d <;> rfl

/-! ## Extractors -/

theorem splitOnceSlash_eq_some {cs front rest : List Char}
    (h : splitOnceSlash cs = some (front, rest)) :
    cs = front ++ '/' :: rest ∧ '/' ∉ front := by
  have hspan : cs.span (· ≠ '/') = (cs.takeWhile (· ≠ '/'), cs.dropWhile (· ≠ '/')) :=
    List.span_eq_takeWhile_dropWhile _ _
  simp only [splitOnceSlash, hspan] at h
  split at h
  · rename_i front' c rest' heq
    obtain ⟨rfl, rfl⟩ := Prod.mk.inj (Option.some.inj h)
    obtain ⟨hfront, hrest⟩ := Prod.mk.inj heq
    have hc : c = '/' := by
      have hhead := List.head?_dropWhile_not (· ≠ '/') cs
      rw [hrest] at hhead
      simpa using hhead
    subst hc
    refine ⟨?_, ?_⟩
    · rw [← hfront, ← hrest, List.takeWhile_append_dropWhile]
    · intro hmem
      rw [← hfront] at hmem
      simpa using List.mem_takeWhile_imp hmem
  · cases h

/-- An extractor recognises exactly the topics with its tail under one tenant segment. -/
theorem tenantForTail_eq_some_iff {text tail tenant : String} :
    tenantForTail text tail = some tenant ↔
      text = "/tenants/" ++ tenant ++ "/" ++ tail ∧ tenant ≠ "" ∧ '/' ∉ tenant.toList := by
  constructor
  · intro h
    unfold tenantForTail at h
    cases hdrop : text.toList.dropPrefix? "/tenants/".toList with
    | none =>
        rw [hdrop] at h
        cases h
    | some rest =>
        simp only [hdrop] at h
        cases hsplit : splitOnceSlash rest with
        | none =>
            rw [hsplit] at h
            cases h
        | some parts =>
            obtain ⟨front, restTail⟩ := parts
            simp only [hsplit, Option.ite_none_right_eq_some] at h
            obtain ⟨⟨rfl, hne⟩, htenant⟩ := h
            obtain rfl := Option.some.inj htenant
            obtain ⟨rfl, hslash⟩ := splitOnceSlash_eq_some hsplit
            obtain ⟨front', htext, hbeq⟩ := List.dropPrefix?_eq_some_iff.mp hdrop
            rw [beq_iff_eq] at hbeq
            refine ⟨String.toList_injective ?_, ?_, ?_⟩
            · rw [htext, hbeq]
              simp
            · intro hempty
              exact hne (by simpa using congrArg String.toList hempty)
            · rwa [String.toList_ofList]
  · rintro ⟨rfl, hne, hslash⟩
    have htext : ("/tenants/" ++ tenant ++ "/" ++ tail).toList =
        "/tenants/".toList ++ (tenant.toList ++ '/' :: tail.toList) := by
      simp
    have hfree : ∀ c ∈ tenant.toList, c ≠ '/' := by
      rintro c hc rfl
      exact hslash hc
    have hne' : tenant.toList ≠ [] := by
      intro hnil
      exact hne (String.toList_injective hnil)
    rw [tenantForTail, htext, List.dropPrefix?_append_of_beq _ (by simp)]
    simp [splitOnceSlash_append hfree, hne']

/-- A topic lies under the prefix of its own host only. -/
theorem tenantPrefix_topic {g h : HostId} {tail rest : String}
    (heq : topic h.toStr.text tail = tenantPrefix g.toStr.text ++ rest) : g = h := by
  have hlist := congrArg String.toList heq
  simp only [topic, tenantPrefix, String.toList_append, List.append_assoc] at hlist
  have hcut : (tenant h.toStr.text).toList ++ '/' :: ("osa/v1".toList ++ tail.toList) =
      (tenant g.toStr.text).toList ++ '/' :: rest.toList := List.append_cancel_left hlist
  have hsplit := congrArg splitOnceSlash hcut
  rw [splitOnceSlash_append (slash_notMem_tenant h), splitOnceSlash_append (slash_notMem_tenant g)]
    at hsplit
  have htenant := (Prod.mk.inj (Option.some.inj hsplit)).1
  exact tenant_injective (String.toList_injective htenant.symm)

/-- The topics of {lit}`topics.rs`, the organization of a host's certificate and the prefix
by which the broker confines the host agree: a topic is recognised by at most one
extractor, and only if it has that extractor's shape; a host's uplink is recognised by its
own extractor, which gives the organization of the host's certificate and with it the host;
no host's topic lies under the prefix of another; and no downlink is recognised. -/
theorem topic_grammar :
    (∀ (text : String) (u v : Uplink), (u.extract text).isSome → (v.extract text).isSome → u = v) ∧
    (∀ (u : Uplink) (text tenant : String), u.extract text = some tenant ↔
      text = "/tenants/" ++ tenant ++ "/osa/v1/up/" ++ u.tail ∧ tenant ≠ "" ∧
        '/' ∉ tenant.toList) ∧
    (∀ (h : HostId) (u v : Uplink), v.extract (u.build h.toStr.text) =
      if v = u then some (tenant h.toStr.text) else none) ∧
    (∀ (h : HostId) (parse : CsrFromDer) (certTtl now : Int) (csr : Framing.Blob)
      (signed : Except String Framing.Blob) (cert : IssuedCert),
      issue parse certTtl now h csr signed = .ok cert →
      cert.params.distinguishedName.lookup .organizationName = some (tenant h.toStr.text)) ∧
    (∀ h : HostId, HostId.parse (tenant h.toStr.text) = some h) ∧
    (∀ g h : HostId, tenant g.toStr.text = tenant h.toStr.text → g = h) ∧
    (∀ (g h : HostId) (u : Uplink) (rest : String),
      u.build h.toStr.text = tenantPrefix g.toStr.text ++ rest → g = h) ∧
    (∀ (g h : HostId) (d : Downlink) (rest : String),
      d.build h.toStr.text = tenantPrefix g.toStr.text ++ rest → g = h) ∧
    ∀ (h : HostId) (d : Downlink) (v : Uplink), v.extract (d.build h.toStr.text) = none := by
  refine ⟨?_, ?_, ?_, ?_, parse_tenant, fun g h => tenant_injective, ?_, ?_, ?_⟩
  · intro text u v hu hv
    obtain ⟨t, ht⟩ := Option.isSome_iff_exists.mp hu
    obtain ⟨t', ht'⟩ := Option.isSome_iff_exists.mp hv
    rw [Uplink.extract_eq] at ht ht'
    exact Uplink.tail_inj (tenantForTail_unique ht ht').1
  · intro u text tenant
    have happend : "/tenants/" ++ tenant ++ "/" ++ ("osa/v1/up/" ++ u.tail) =
        "/tenants/" ++ tenant ++ "/osa/v1/up/" ++ u.tail := by
      apply String.toList_injective
      simp
    rw [Uplink.extract_eq, tenantForTail_eq_some_iff, happend]
  · intro h u v
    rw [Uplink.extract_eq, Uplink.build_eq, tenantForTail_topic]
    cases u <;> cases v <;> rfl
  · intro h parse certTtl now csr signed cert hissue
    obtain ⟨req, -, -, hparams, -⟩ := issue_eq_ok hissue
    rw [hparams, hostParams_organization]
    rfl
  · intro g h u rest heq
    rw [Uplink.build_eq] at heq
    exact tenantPrefix_topic heq
  · intro g h d rest heq
    rw [Downlink.build_eq] at heq
    exact tenantPrefix_topic heq
  · intro h d v
    rw [Uplink.extract_eq, Downlink.build_eq, tenantForTail_topic]
    cases d <;> cases v <;> rfl

/-- A certificate issued for the sample host, whatever its request asked for. -/
def issuedForSample : IssuedCert :=
  ⟨hostParams 60 0 sampleHost (hostSanUri sampleHost), .ec (.ofKey ⟨1⟩), .lit [3]⟩

theorem topic_grammar_issued :
    issuedForSample.params.distinguishedName.lookup .organizationName =
      some "77777777777777777777777777777777" ∧
    Uplink.hs.extract (Uplink.hs.build sampleHost.toStr.text) =
      some "77777777777777777777777777777777" := by
  obtain ⟨-, -, hown, hissued, -⟩ := topic_grammar
  have htenant : tenant sampleHost.toStr.text = "77777777777777777777777777777777" := by
    decide +kernel
  rw [← htenant]
  refine ⟨hissued sampleHost (fun _ => .ok ⟨[2], .signed ⟨1⟩ [2] 0, .ec (.ofKey ⟨1⟩), caParams 0⟩)
    60 0 (.lit [2]) (.ok (.lit [3])) issuedForSample (by decide +kernel), ?_⟩
  exact hown sampleHost .hs .hs

end Coordinator
end OpenSsmAgent
