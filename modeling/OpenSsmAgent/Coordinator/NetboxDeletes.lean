import OpenSsmAgent.Coordinator.NetboxConvergence

/-!
# What a reconcile deletes

The deletes of a reconcile are computed from its first read, while rows have been moved
and created since.  Whatever the snapshot, also with one name or one address reported
twice, and wherever the reconcile stops: every row that was matched or created for an
observed address is on an interface with an observed name when the deletes begin, the
deletes spare both, and the primary addresses point at such rows by then.

Main results:

- Theorem {lit}`reconcile_spares`: the rule of the whole reconcile, over the calls made.
- Theorem {lit}`deletes_nothing_in_use`: what is never deleted, at every call and wherever
  the reconcile stops.
-/

open Framing RemoteCalls

namespace OpenSsmAgent
namespace Coordinator

open Domain Proto Wire

/-! ## What is in use -/

/-- The observed names. -/
def observedNames (observed : Inventory) : List String :=
  observed.interfaces.map fun iface => iface.name.text

/-- The rows that a reconcile finds for the observed addresses. -/
def matchedRows (server : NetboxServer) (device : Nat) (observed : Inventory) (nb : Netbox) :
    List Nat :=
  (observed.interfaces.flatMap cidrs).filterMap fun cidr =>
    (existingIps (nb.readInterfaces server device) cidr).map Prod.fst

/-- The numbers of the rows that were created. -/
def createdRows (calls : List (NetboxCall × Netbox)) : List Nat :=
  calls.filterMap fun
    | (.createIp _ _, nb) => some nb.ips.next
    | _ => none

/-- The rows that were matched or created for an observed address. -/
def usedRows (server : NetboxServer) (device : Nat) (observed : Inventory) (start : Netbox)
    (calls : List (NetboxCall × Netbox)) : List Nat :=
  matchedRows server device observed start ++ createdRows calls

/-- A primary address is empty or is a row of the device. -/
def OwnPrimary (device : Nat) (primary : DeviceRow → Option Nat) (nb : Netbox) : Prop :=
  ∀ row ip, nb.devices.get device = some row → primary row = some ip →
    ∃ i name address, nb.ips.get ip = some ⟨i, address⟩ ∧
      nb.interfaces.get i = some ⟨device, name⟩

/-- A primary address is empty or points at a row. -/
def LivePrimary (device : Nat) (primary : DeviceRow → Option Nat) (nb : Netbox) : Prop :=
  ∀ row ip, nb.devices.get device = some row → primary row = some ip →
    (nb.ips.get ip).isSome = true

/-- Both primary addresses have been written. -/
def Finalized (device : Nat) (host : HostId) (calls : List (NetboxCall × Netbox)) : Prop :=
  ∃ primaryIp4 primaryIp6 nb,
    (.finalizeDevice device primaryIp4 primaryIp6 host.toStr.text, nb) ∈ calls

/-- A call that deletes. -/
def NetboxCall.isDelete : NetboxCall → Bool
  | .deleteIp _ | .deleteInterface _ => true
  | _ => false

theorem createdRows_append (calls more : List (NetboxCall × Netbox)) :
    createdRows (calls ++ more) = createdRows calls ++ createdRows more :=
  List.filterMap_append

theorem createdRows_createIp (calls : List (NetboxCall × Netbox)) (i : Nat) (address : String)
    (nb : Netbox) :
    createdRows (calls ++ [(.createIp i address, nb)]) = createdRows calls ++ [nb.ips.next] := by
  rw [createdRows_append]
  rfl

theorem createdRows_other (calls : List (NetboxCall × Netbox)) {c : NetboxCall} (nb : Netbox)
    (hc : ∀ i address, c ≠ .createIp i address) :
    createdRows (calls ++ [(c, nb)]) = createdRows calls := by
  cases c with
  | createIp i address => exact absurd rfl (hc i address)
  | _ =>
      rw [createdRows_append]
      exact List.append_nil _

/-- A recorded state: NetBox and the calls so far. -/
abbrev Recorded := Netbox × List (NetboxCall × Netbox)

section Rules

variable (server : NetboxServer) (device : Nat) (host : HostId) (observed : Inventory)
  (start : Netbox)

/-- The primary addresses live, if they were rows of the device at the start. -/
def PrimariesLive (r : Recorded) : Prop :=
  ∀ primary ∈ [DeviceRow.primaryIp4, DeviceRow.primaryIp6],
    OwnPrimary device primary start → LivePrimary device primary r.1

/-- What is guaranteed of a delete, by the state it meets and the calls before it. -/
def Spares (c : NetboxCall) (r : Recorded) : Prop :=
  match c with
  | .deleteIp ip => Finalized device host r.2 ∧ ip ∉ usedRows server device observed start r.2
  | .deleteInterface i => Finalized device host r.2 ∧
      (∀ row, r.1.interfaces.get i = some row → row.name ∉ observedNames observed) ∧
      ∀ ip ∈ usedRows server device observed start r.2, ∀ row, r.1.ips.get ip = some row →
        row.interface ≠ i
  | _ => True

/-- A program that spares what is in use. -/
abbrev SparingRuns {A : Type} (p : NetboxProg A) (Q : A → Recorded → Prop) (r : Recorded) : Prop :=
  Runs (recording (Netbox.serve server)) (PrimariesLive device start)
    (Spares server device host observed start) p Q r

/-- In the middle of a reconcile: interfaces stay, the rows to keep are on interfaces with
observed names, all other rows are as they were, and the rows matched for the addresses
gone through and the rows created are to be kept. -/
structure Placing (gone : List String) (k : Kept) (r : Recorded) : Prop where
  devices : r.1.devices = start.devices
  interfaces : ∀ id row, start.interfaces.get id = some row → r.1.interfaces.get id = some row
  stays : ∀ ip, ip ∉ k.keptIpIds → r.1.ips.get ip = start.ips.get ip
  placed : ∀ ip ∈ k.keptIpIds, ∃ i name address, r.1.ips.get ip = some ⟨i, address⟩ ∧
    r.1.interfaces.get i = some ⟨device, name⟩ ∧ name ∈ observedNames observed
  matched : ∀ cidr ∈ gone, ∀ ip i,
    existingIps (start.readInterfaces server device) cidr = some (ip, i) → ip ∈ k.keptIpIds
  created : ∀ ip ∈ createdRows r.2, ip ∈ k.keptIpIds
  primaries : ∀ ip, k.primaryIp4 = some ip ∨ k.primaryIp6 = some ip → ip ∈ k.keptIpIds

end Rules

section Placing

variable {server : NetboxServer} {device : Nat} {host : HostId} {observed : Inventory}
  {start : Netbox} {gone : List String} {k : Kept} {r : Recorded}

theorem live_of_rows {nb : Netbox} (calls : List (NetboxCall × Netbox))
    (hdevices : nb.devices = start.devices)
    (hrows : ∀ ip, (start.ips.get ip).isSome = true → (nb.ips.get ip).isSome = true) :
    PrimariesLive device start (nb, calls) := by
  intro primary _ hown row ip hrow hip
  rw [hdevices] at hrow
  obtain ⟨i, name, address, hget, -⟩ := hown row ip hrow hip
  exact hrows ip (by rw [hget]; rfl)

theorem Placing.rows (h : Placing server device observed start gone k r) (ip : Nat)
    (hip : (start.ips.get ip).isSome = true) : (r.1.ips.get ip).isSome = true := by
  by_cases hkept : ip ∈ k.keptIpIds
  · obtain ⟨i, name, address, hget, -⟩ := h.placed ip hkept
    rw [hget]
    rfl
  · rw [h.stays ip hkept, hip]

/-- While rows are placed, no row is lost and the device is not touched. -/
theorem Placing.live (h : Placing server device observed start gone k r) :
    PrimariesLive device start r :=
  live_of_rows r.2 h.devices h.rows

@[simp] theorem keep_keptIpIds (k : Kept) (cidr : String) (ip : Nat) :
    (k.keep cidr ip).keptIpIds = k.keptIpIds ++ [ip] := rfl

/-- Keeping one more row. -/
theorem Placing.keep (h : Placing server device observed start gone k r) {r' : Recorded}
    {cidr name : String} {ip i : Nat} (hdevices : r'.1.devices = r.1.devices)
    (hinterfaces : r'.1.interfaces = r.1.interfaces)
    (hseat : r.1.interfaces.get i = some ⟨device, name⟩) (hname : name ∈ observedNames observed)
    (hips : ∀ id, id ≠ ip → r'.1.ips.get id = r.1.ips.get id)
    (hplaced : (∃ address, r'.1.ips.get ip = some ⟨i, address⟩) ∨
      ip ∈ k.keptIpIds ∧ r'.1.ips.get ip = r.1.ips.get ip)
    (hmatched : ∀ ip' i', existingIps (start.readInterfaces server device) cidr = some (ip', i') →
      ip' = ip)
    (hcreated : ∀ id ∈ createdRows r'.2, id ∈ createdRows r.2 ∨ id = ip) :
    Placing server device observed start (gone ++ [cidr]) (k.keep cidr ip) r' where
  devices := hdevices.trans h.devices
  interfaces := by
    rw [hinterfaces]
    exact h.interfaces
  stays := by
    intro id hid
    simp only [keep_keptIpIds, List.mem_append, List.mem_singleton, not_or] at hid
    rw [hips id hid.2, h.stays id hid.1]
  placed := by
    rw [hinterfaces]
    intro id hid
    by_cases heq : id = ip
    · subst heq
      rcases hplaced with ⟨address, hget⟩ | ⟨hkept, hget⟩
      · exact ⟨i, name, address, hget, hseat, hname⟩
      · rw [hget]
        exact h.placed id hkept
    · have hkept : id ∈ k.keptIpIds := by
        simpa [heq] using hid
      rw [hips id heq]
      exact h.placed id hkept
  matched := by
    intro cidr' hcidr' ip' i' hexisting
    rw [keep_keptIpIds, List.mem_append, List.mem_singleton]
    rcases List.mem_append.mp hcidr' with hgone | hhere
    · exact .inl (h.matched cidr' hgone ip' i' hexisting)
    · obtain rfl := List.mem_singleton.mp hhere
      exact .inr (hmatched ip' i' hexisting)
  created := by
    intro id hid
    rw [keep_keptIpIds, List.mem_append, List.mem_singleton]
    exact (hcreated id hid).imp_left (h.created id)
  primaries := by
    have hor : ∀ (primary : Option Nat) (id : Nat), primary.or (some ip) = some id →
        primary = some id ∨ id = ip := by
      intro primary id hid
      cases primary with
      | none => exact .inr (Option.some.inj hid).symm
      | some old => exact .inl hid
    intro id hid
    rw [keep_keptIpIds, List.mem_append, List.mem_singleton]
    simp only [Kept.keep] at hid
    by_cases hv4 : isIpv4Cidr cidr = true
    · simp only [hv4, if_true] at hid
      rcases hid with hid | hid
      · exact (hor _ _ hid).imp_left fun hold => h.primaries id (.inl hold)
      · exact .inl (h.primaries id (.inr hid))
    · simp only [hv4] at hid
      rcases hid with hid | hid
      · exact .inl (h.primaries id (.inl hid))
      · exact (hor _ _ hid).imp_left fun hold => h.primaries id (.inr hold)

/-- One address: its row is on the interface, or was kept before, and is kept. -/
theorem placeIp_placing (h : Placing server device observed start gone k r) {i : Nat}
    {name : String} (hseat : r.1.interfaces.get i = some ⟨device, name⟩)
    (hname : name ∈ observedNames observed) (cidr : String) :
    SparingRuns server device host observed start
      (placeIp (start.readInterfaces server device) i k cidr)
      (fun k' r' => Placing server device observed start (gone ++ [cidr]) k' r' ∧
        r'.1.interfaces = r.1.interfaces) r := by
  have hlt : i < r.1.interfaces.next := RowTable.lt_of_get hseat
  unfold placeIp
  split
  · rename_i ip cur hexisting
    obtain ⟨iface, hiface, rfl, hip⟩ := mem_of_existingIps hexisting
    have hread := ((mem_readInterfaces hiface).2 _).mp hip
    have hmatched : ∀ ip' i', existingIps (start.readInterfaces server device) cidr =
        some (ip', i') → ip' = ip := by
      intro ip' i' hexisting'
      rw [hexisting] at hexisting'
      exact (Prod.mk.inj (Option.some.inj hexisting')).1.symm
    have hnow : ∃ row, r.1.ips.get ip = some row :=
      Option.isSome_iff_exists.mp (h.rows ip (by rw [hread]; rfl))
    split_ifs with hmove
    · obtain ⟨row, hrow⟩ := hnow
      have hget : ∀ id, (r.1.moveIp ip i).ips.get id =
          if id = ip then some ⟨i, row.address⟩ else r.1.ips.get id := by
        intro id
        simp only [Netbox.moveIp, dif_pos hlt, RowTable.get_update]
        split_ifs with hid
        · rw [hid, hrow]
          rfl
        · rfl
      have hsame : (r.1.moveIp ip i).interfaces = r.1.interfaces := by
        simp only [Netbox.moveIp, dif_pos hlt]
      have hplacing : Placing server device observed start (gone ++ [cidr]) (k.keep cidr ip)
          (r.1.moveIp ip i, r.2 ++ [(.moveIp ip i, r.1)]) := by
        refine h.keep ?_ hsame hseat hname (fun id hid => by rw [hget, if_neg hid])
          (.inl ⟨row.address, by rw [hget, if_pos rfl]⟩) hmatched ?_
        · simp only [Netbox.moveIp, dif_pos hlt]
        · intro id hid
          rw [createdRows_other _ _ (by simp)] at hid
          exact .inl hid
      refine Runs.bind (Q := fun _ r' => r' = (r.1.moveIp ip i, r.2 ++ [(.moveIp ip i, r.1)]))
        (runs_perform h.live trivial hplacing.live rfl) ?_
      rintro - r' - rfl
      exact runs_pure hplacing.live ⟨hplacing, hsame⟩
    · -- the row is on the interface, unless it was kept on another one before
      have hstay : iface.id = i := not_not.mp hmove
      have hplacing : Placing server device observed start (gone ++ [cidr]) (k.keep cidr ip) r := by
        refine h.keep rfl rfl hseat hname (fun _ _ => rfl) ?_ hmatched (fun _ hid => .inl hid)
        by_cases hkept : ip ∈ k.keptIpIds
        · exact .inr ⟨hkept, rfl⟩
        · exact .inl ⟨cidr, by rw [h.stays ip hkept, hread, hstay]⟩
      exact runs_pure h.live ⟨hplacing, rfl⟩
  · rename_i hnone
    have hget : ∀ id, (r.1.createIp i cidr).2.ips.get id =
        if id = r.1.ips.next then some ⟨i, cidr⟩ else r.1.ips.get id := by
      intro id
      simp only [Netbox.createIp, dif_pos hlt]
      exact RowTable.get_insert _ _ _
    have hsame : (r.1.createIp i cidr).2.interfaces = r.1.interfaces := by
      simp only [Netbox.createIp, dif_pos hlt]
    have hplacing : Placing server device observed start (gone ++ [cidr])
        (k.keep cidr r.1.ips.next)
        ((r.1.createIp i cidr).2, r.2 ++ [(.createIp i cidr, r.1)]) := by
      refine h.keep ?_ hsame hseat hname (fun id hid => by rw [hget, if_neg hid])
        (.inl ⟨cidr, by rw [hget, if_pos rfl]⟩) ?_ ?_
      · simp only [Netbox.createIp, dif_pos hlt]
      · intro ip' i' hexisting
        rw [hnone] at hexisting
        cases hexisting
      · intro id hid
        rw [createdRows_createIp] at hid
        simpa using hid
    refine Runs.bind (Q := fun (ip : Nat) r' => ip = r.1.ips.next ∧
      r' = ((r.1.createIp i cidr).2, r.2 ++ [(.createIp i cidr, r.1)]))
      (runs_perform h.live trivial hplacing.live ⟨rfl, rfl⟩) ?_
    rintro ip r' - ⟨rfl, rfl⟩
    exact runs_pure hplacing.live ⟨hplacing, hsame⟩

/-- The seat of an observed interface has its name. -/
theorem ensureInterface_placing (h : Placing server device observed start gone k r)
    (name : String) :
    SparingRuns server device host observed start
      (ensureInterface device (start.readInterfaces server device) name)
      (fun i r' => Placing server device observed start gone k r' ∧
        r'.1.interfaces.get i = some ⟨device, name⟩) r := by
  unfold ensureInterface
  split
  · rename_i cur hcur
    obtain ⟨hmem, rfl⟩ := mem_of_currentByName hcur
    exact runs_pure h.live ⟨h, h.interfaces _ _ (mem_readInterfaces hmem).1⟩
  · have hget : ∀ id row, r.1.interfaces.get id = some row →
        (r.1.createInterface device name).2.interfaces.get id = some row := by
      intro id row hrow
      simp only [Netbox.createInterface, RowTable.get_insert,
        if_neg (RowTable.lt_of_get hrow).ne, hrow]
    have hplacing : Placing server device observed start gone k
        ((r.1.createInterface device name).2, r.2 ++ [(.createInterface device name, r.1)]) := by
      refine ⟨h.devices, fun id row hrow => hget id row (h.interfaces id row hrow), h.stays, ?_,
        h.matched, ?_, h.primaries⟩
      · intro ip hip
        obtain ⟨i, name', address, hrow, hi, hname'⟩ := h.placed ip hip
        exact ⟨i, name', address, hrow, hget i _ hi, hname'⟩
      · intro ip hip
        rw [createdRows_other _ _ (by simp)] at hip
        exact h.created ip hip
    refine runs_perform h.live trivial hplacing.live ⟨hplacing, ?_⟩
    show (r.1.createInterface device name).2.interfaces.get r.1.interfaces.next = _
    simp only [Netbox.createInterface, RowTable.get_insert, if_true]

/-- One observed interface. -/
theorem placeInterface_placing (h : Placing server device observed start gone k r)
    {iface : InventoryInterface} (hiface : iface ∈ observed.interfaces) :
    SparingRuns server device host observed start
      (placeInterface device (start.readInterfaces server device) k iface)
      (Placing server device observed start (gone ++ cidrs iface)) r := by
  have hname : iface.name.text ∈ observedNames observed := List.mem_map_of_mem hiface
  refine (ensureInterface_placing h iface.name.text).bind fun i r' _ hseat => ?_
  refine (Runs.foldlM (fun front k' r'' =>
      Placing server device observed start (gone ++ front) k' r'' ∧
      r''.1.interfaces.get i = some ⟨device, iface.name.text⟩)
    ?_ ?_ (by simpa using hseat)).post fun k' r'' _ h'' => h''.1
  · intro front k' r'' h''
    exact h''.1.live
  · rintro front cidr back k' r'' - ⟨h'', hget⟩
    refine (placeIp_placing h'' hget hname cidr).post ?_
    rintro k₂ r₂ - ⟨hplacing, hsame⟩
    exact ⟨by simpa using hplacing, by rw [hsame, hget]⟩

/-- All observed interfaces. -/
theorem placeAll_placing (h : Placing server device observed start [] ⟨none, none, []⟩ r) :
    SparingRuns server device host observed start
      (observed.interfaces.foldlM (placeInterface device (start.readInterfaces server device))
        ⟨none, none, []⟩)
      (Placing server device observed start (observed.interfaces.flatMap cidrs)) r := by
  refine Runs.foldlM (fun front => Placing server device observed start (front.flatMap cidrs))
    (fun front k' r' h' => h'.live) ?_ h
  intro front iface back k' r' hsplit h'
  have hiface : iface ∈ observed.interfaces := by
    rw [hsplit]
    simp
  refine (placeInterface_placing h' hiface).post ?_
  intro k'' r'' _ h''
  simpa using h''

end Placing

/-! ## The deletes -/

section Deletes

variable {server : NetboxServer} {device : Nat} {host : HostId} {observed : Inventory}
  {start : Netbox} {k : Kept} {r : Recorded}

/-- While the deletes go on: the rows to keep, which include every row in use and the
primary addresses, stay on interfaces with observed names. -/
structure Deleting (server : NetboxServer) (device : Nat) (host : HostId) (observed : Inventory)
    (start : Netbox) (k : Kept) (r : Recorded) : Prop where
  finalized : Finalized device host r.2
  used : ∀ ip ∈ usedRows server device observed start r.2, ip ∈ k.keptIpIds
  primaries : ∀ row ip, r.1.devices.get device = some row →
    row.primaryIp4 = some ip ∨ row.primaryIp6 = some ip → ip ∈ k.keptIpIds
  placed : ∀ ip ∈ k.keptIpIds, ∃ i name address, r.1.ips.get ip = some ⟨i, address⟩ ∧
    r.1.interfaces.get i = some ⟨device, name⟩ ∧ name ∈ observedNames observed
  names : ∀ id row row', start.interfaces.get id = some row →
    r.1.interfaces.get id = some row' → row' = row

theorem Deleting.live (h : Deleting server device host observed start k r) :
    PrimariesLive device start r := by
  intro primary hprimary _ row ip hrow hip
  have hkept : ip ∈ k.keptIpIds := by
    refine h.primaries row ip hrow ?_
    simp only [List.mem_cons, List.not_mem_nil, or_false] at hprimary
    rcases hprimary with rfl | rfl
    · exact .inl hip
    · exact .inr hip
  obtain ⟨i, name, address, hget, -⟩ := h.placed ip hkept
  rw [hget]
  rfl

theorem mem_usedRows_of_kept
    (h : Placing server device observed start (observed.interfaces.flatMap cidrs) k r) {ip : Nat}
    (hip : ip ∈ usedRows server device observed start r.2) : ip ∈ k.keptIpIds := by
  rcases List.mem_append.mp hip with hmatched | hcreated
  · obtain ⟨cidr, hcidr, hexisting⟩ := List.mem_filterMap.mp hmatched
    obtain ⟨⟨id, i⟩, hfound, rfl⟩ := Option.map_eq_some_iff.mp hexisting
    exact h.matched cidr hcidr id i hfound
  · exact h.created ip hcreated

/-- The primary addresses are repointed at rows to keep. -/
theorem finalize_deleting
    (h : Placing server device observed start (observed.interfaces.flatMap cidrs) k r) :
    SparingRuns server device host observed start
      (NetboxDevices.finalizeDevice device k.primaryIp4 k.primaryIp6 host.toStr.text)
      (fun _ => Deleting server device host observed start k) r := by
  have hdeleting : Deleting server device host observed start k
      (r.1.finalizeDevice device k.primaryIp4 k.primaryIp6 host.toStr.text,
        r.2 ++ [(.finalizeDevice device k.primaryIp4 k.primaryIp6 host.toStr.text, r.1)]) := by
    refine ⟨⟨_, _, _, List.mem_append_right _ (List.mem_singleton_self _)⟩, ?_, ?_, h.placed, ?_⟩
    · intro ip hip
      rw [usedRows, createdRows_other _ _ (by simp)] at hip
      exact mem_usedRows_of_kept h hip
    · intro row ip hrow hip
      simp only [Netbox.finalizeDevice, RowTable.get_update, if_true] at hrow
      obtain ⟨old, -, rfl⟩ := Option.map_eq_some_iff.mp hrow
      exact h.primaries ip hip
    · intro id row row' hrow hrow'
      have hsame := h.interfaces id row hrow
      exact Option.some.inj (hrow'.symm.trans hsame)
  exact runs_perform h.live trivial hdeleting.live hdeleting

/-- A row that is not to be kept is deleted. -/
theorem deleteIp_deleting (h : Deleting server device host observed start k r) {ip : Nat}
    (hip : ip ∉ k.keptIpIds) :
    SparingRuns server device host observed start (NetboxDevices.deleteIp ip)
      (fun _ => Deleting server device host observed start k) r := by
  have hspares : Spares server device host observed start (.deleteIp ip) r :=
    ⟨h.finalized, fun hused => hip (h.used ip hused)⟩
  have hdeleting : Deleting server device host observed start k
      (r.1.deleteIp ip, r.2 ++ [(.deleteIp ip, r.1)]) := by
    refine ⟨?_, ?_, h.primaries, ?_, h.names⟩
    · obtain ⟨p4, p6, nb, hmem⟩ := h.finalized
      exact ⟨p4, p6, nb, List.mem_append_left _ hmem⟩
    · intro id hid
      rw [usedRows, createdRows_other _ _ (by simp)] at hid
      exact h.used id hid
    · intro id hid
      obtain ⟨i, name, address, hget, hrest⟩ := h.placed id hid
      refine ⟨i, name, address, ?_, hrest⟩
      have hne : id ≠ ip := fun heq => hip (heq ▸ hid)
      simp [Netbox.deleteIp, RowTable.get_deleteWhere, hget, hne]
  exact runs_perform h.live hspares hdeleting.live hdeleting

/-- An interface without an observed name is deleted; no row to keep is on it. -/
theorem deleteInterface_deleting (h : Deleting server device host observed start k r)
    {cur : NbInterface} (hcur : cur ∈ start.readInterfaces server device)
    (hname : cur.name ∉ observedNames observed) :
    SparingRuns server device host observed start (NetboxDevices.deleteInterface cur.id)
      (fun _ => Deleting server device host observed start k) r := by
  have hread := (mem_readInterfaces hcur).1
  have hother : ∀ i name, r.1.interfaces.get i = some ⟨device, name⟩ →
      name ∈ observedNames observed → i ≠ cur.id := by
    rintro i name hget hobserved rfl
    obtain ⟨-, rfl⟩ := InterfaceRow.mk.inj (h.names cur.id _ _ hread hget)
    exact hname hobserved
  have hspares : Spares server device host observed start (.deleteInterface cur.id) r := by
    refine ⟨h.finalized, ?_, ?_⟩
    · intro row hrow
      rw [h.names cur.id _ _ hread hrow]
      exact hname
    · intro ip hused row hrow
      obtain ⟨i, name, address, hget, hi, hobserved⟩ := h.placed ip (h.used ip hused)
      rw [hget] at hrow
      obtain rfl := Option.some.inj hrow
      exact hother i name hi hobserved
  have hdeleting : Deleting server device host observed start k
      (r.1.deleteInterface cur.id, r.2 ++ [(.deleteInterface cur.id, r.1)]) := by
    refine ⟨?_, ?_, h.primaries, ?_, ?_⟩
    · obtain ⟨p4, p6, nb, hmem⟩ := h.finalized
      exact ⟨p4, p6, nb, List.mem_append_left _ hmem⟩
    · intro id hid
      rw [usedRows, createdRows_other _ _ (by simp)] at hid
      exact h.used id hid
    · intro id hid
      obtain ⟨i, name, address, hget, hi, hobserved⟩ := h.placed id hid
      have hne := hother i name hi hobserved
      refine ⟨i, name, address, ?_, ?_, hobserved⟩
      · simp [Netbox.deleteInterface, RowTable.get_deleteWhere, hget, hne]
      · simp [Netbox.deleteInterface, RowTable.get_deleteWhere, hi, hne]
    · intro id row row' hrow hrow'
      simp only [Netbox.deleteInterface, RowTable.get_deleteWhere] at hrow'
      exact h.names id row row' hrow (Option.filter_eq_some_iff.mp hrow').1
  exact runs_perform h.live hspares hdeleting.live hdeleting

end Deletes

/-! ## The whole reconcile -/

/-- Every delete of a reconcile spares what is in use, and the primary addresses live
wherever it stops. -/
theorem reconcile_spares (server : NetboxServer) (device : Nat) (host : HostId)
    (observed : Inventory) (start : Netbox) :
    SparingRuns server device host observed start (reconcile device host observed)
      (fun _ _ => True) (start, []) := by
  have hinitial : Placing server device observed start [] ⟨none, none, []⟩
      (start, [(.readInterfaces device, start)]) :=
    ⟨rfl, fun _ _ h => h, fun _ _ => rfl, by simp, by simp, by simp [createdRows], by simp⟩
  unfold reconcile
  refine Runs.bind (Q := fun current r => current = start.readInterfaces server device ∧
    r = (start, [(.readInterfaces device, start)]))
    (runs_perform (live_of_rows [] rfl fun _ h => h) trivial hinitial.live ⟨rfl, rfl⟩) ?_
  rintro current r - ⟨rfl, rfl⟩
  refine (placeAll_placing hinitial).bind fun k r _ hplaced => ?_
  refine (finalize_deleting hplaced).bind fun _ r _ hdeleting => ?_
  refine Runs.bind (Q := fun _ => Deleting server device host observed start k) ?_ ?_
  · refine Runs.forM (fun _ => Deleting server device host observed start k)
      (fun _ r h => h.live) ?_ hdeleting
    intro front ip back r _ h
    split_ifs with hip
    · exact runs_pure h.live h
    · exact deleteIp_deleting h hip
  · intro _ r _ h
    refine (Runs.forM (fun _ => Deleting server device host observed start k)
      (fun _ r h => h.live) ?_ h).post fun _ _ _ _ => trivial
    intro front cur back r hsplit h
    have hcur : cur ∈ start.readInterfaces server device := by
      rw [hsplit]
      simp
    split_ifs with hname
    · exact runs_pure h.live h
    · exact deleteInterface_deleting h hcur hname

/-- For every device, snapshot and failing call: wherever the reconcile stops and at every
call it makes, a primary address that was a row of the device points at a row; and every
delete comes after both primary addresses were written, is not of a row that was matched or
created for an observed address, is not of an interface with an observed name or with such
a row on it, and leaves every such row as it is. -/
theorem deletes_nothing_in_use (server : NetboxServer) (device : Nat) (host : HostId)
    (observed : Inventory) (nb : Netbox) (fates : List (Fate PortError)) :
    let out := reconcileOn server device host observed nb fates
    (∀ primary ∈ [DeviceRow.primaryIp4, DeviceRow.primaryIp6], OwnPrimary device primary nb →
      ∀ s ∈ out.2.calls.map Prod.snd ++ [out.2.state], LivePrimary device primary s) ∧
    ∀ before c s after, out.2.calls = before ++ (c, s) :: after → c.isDelete = true →
      Finalized device host before ∧
      (∀ ip, c = .deleteIp ip → ip ∉ usedRows server device observed nb before) ∧
      (∀ i, c = .deleteInterface i →
        (∀ row, s.interfaces.get i = some row → row.name ∉ observedNames observed) ∧
        ∀ ip ∈ usedRows server device observed nb before, ∀ row, s.ips.get ip = some row →
          row.interface ≠ i) ∧
      ∀ ip ∈ usedRows server device observed nb before,
        (Netbox.serve server c s).2.ips.get ip = s.ips.get ip := by
  intro out
  obtain ⟨⟨seen, hlast⟩, made, hcalls, hmade⟩ :=
    Runs.exec_recording (w := (⟨nb, fates, []⟩ : NetboxWorld))
      (reconcile_spares server device host observed nb)
  have hout : out.2.calls = made := hcalls
  refine ⟨?_, ?_⟩
  · intro primary hprimary hown s hs
    rcases List.mem_append.mp hs with hs | hs
    · obtain ⟨⟨c, s'⟩, hmem, rfl⟩ := List.mem_map.mp hs
      rw [hout] at hmem
      obtain ⟨before, after, hsplit⟩ := List.append_of_mem hmem
      exact (hmade before c s' after hsplit).1 primary hprimary hown
    · rw [List.mem_singleton.mp hs]
      exact hlast primary hprimary hown
  · intro before c s after hsplit hdelete
    rw [hout] at hsplit
    have hspares := (hmade before c s after hsplit).2
    cases c with
    | deleteIp ip =>
        obtain ⟨hfinal, hunused⟩ := hspares
        refine ⟨hfinal, ?_, by simp, ?_⟩
        · rintro _ ⟨⟩
          exact hunused
        · intro id hid
          have hne : id ≠ ip := fun heq => hunused (heq ▸ hid)
          simp only [Netbox.serve, Netbox.deleteIp, RowTable.get_deleteWhere]
          cases s.ips.get id <;> simp [hne]
    | deleteInterface i =>
        obtain ⟨hfinal, hnames, hrows⟩ := hspares
        refine ⟨hfinal, by simp, ?_, ?_⟩
        · rintro _ ⟨⟩
          exact ⟨hnames, hrows⟩
        · intro id hid
          simp only [Netbox.serve, Netbox.deleteInterface, RowTable.get_deleteWhere]
          cases hget : s.ips.get id with
          | none => rfl
          | some row => simp [Option.filter, hrows id hid row hget]
    | _ => cases hdelete

/-- The sample device after another reconcile, with the second row of its address as the
primary one. -/
def samplePrimary : Netbox :=
  sampleNetbox.finalizeDevice 1 (some 2) none sampleHost.toStr.text

/-- The sample device gets its address moved to another interface; the old interface and
the second row of the address, the primary one before, are deleted. -/
theorem deletes_nothing_in_use_sample :
    (samplePrimary.devices.get 1).bind DeviceRow.primaryIp4 = some 2 ∧
    LivePrimary 1 DeviceRow.primaryIp4
      (reconcileOn sampleServer 1 sampleHost sampleObserved samplePrimary []).2.state ∧
    (reconcileOn sampleServer 1 sampleHost sampleObserved samplePrimary []).2.state.ips.get 1 =
      some ⟨1, "192.0.2.5/32"⟩ ∧
    (reconcileOn sampleServer 1 sampleHost sampleObserved samplePrimary []).2.state.ips.get 2 =
      none := by
  have hprimary : (samplePrimary.devices.get 1).bind DeviceRow.primaryIp4 = some 2 := by decide
  have hown : OwnPrimary 1 DeviceRow.primaryIp4 samplePrimary := by
    intro row ip hrow hip
    rw [hrow] at hprimary
    obtain rfl := Option.some.inj (hip.symm.trans hprimary)
    exact ⟨2, "old0", "192.0.2.5/32", by decide, by decide⟩
  have hspared := deletes_nothing_in_use sampleServer 1 sampleHost sampleObserved samplePrimary []
  exact ⟨hprimary, hspared.1 _ (by simp) hown _ (by simp), by decide +kernel, by decide +kernel⟩

end Coordinator
end OpenSsmAgent
