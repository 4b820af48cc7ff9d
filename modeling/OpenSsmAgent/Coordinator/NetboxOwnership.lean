import OpenSsmAgent.Coordinator.Netbox

/-!
# Device ownership

An upsert writes to one device at most, the one its serial matched, and only if the
device carries no other host's stamp.  The stamp is checked when the device is
matched and set in the middle of the reconcile, and an attempt may stop anywhere and
be repeated from the match.  So the invariant that carries ownership speaks of
everything an attempt may leave behind: all other devices are kept, no serial
changes, and the stamp of the device is the old one or the host's own.

Main results:

- Theorem {lit}`reconcile_runs`: a reconcile touches its device only, wherever it
  stops.
- Theorem {lit}`upsert_cases`: an upsert writes nothing, or writes to the unique match
  of its serial.
- Theorem {lit}`devices_owned`: along every run of upserts a stamped device is left
  alone by all other hosts, and outcomes without a write have made none.
-/

open Framing RemoteCalls

namespace OpenSsmAgent
namespace Coordinator

open Domain Proto Wire

/-! ## What a write touches -/

/-- The device of an interface. -/
def Netbox.deviceOf (nb : Netbox) (interface : Nat) : List Nat :=
  ((nb.interfaces.get interface).map InterfaceRow.device).toList

/-- The device of an address. -/
def Netbox.deviceOfIp (nb : Netbox) (ip : Nat) : List Nat :=
  (nb.ips.get ip).toList.flatMap fun row => nb.deviceOf row.interface

/-- The devices on which a call writes. -/
def NetboxCall.touches (nb : Netbox) : NetboxCall → List Nat
  | .matchBySerial _ | .readInterfaces _ => []
  | .createInterface device _ => [device]
  | .deleteInterface interface => nb.deviceOf interface
  | .createIp interface _ => nb.deviceOf interface
  | .moveIp ip interface => nb.deviceOfIp ip ++ nb.deviceOf interface
  | .deleteIp ip => nb.deviceOfIp ip
  | .finalizeDevice device _ _ _ => [device]

/-- A device with its interfaces and their addresses is as it was. -/
structure DeviceKept (device : Nat) (nb nb' : Netbox) : Prop where
  row : nb'.devices.get device = nb.devices.get device
  interfaces : ∀ id name,
    nb'.interfaces.get id = some ⟨device, name⟩ ↔ nb.interfaces.get id = some ⟨device, name⟩
  ips : ∀ i name, nb.interfaces.get i = some ⟨device, name⟩ → ∀ id address,
    nb'.ips.get id = some ⟨i, address⟩ ↔ nb.ips.get id = some ⟨i, address⟩

/-- The serials of the devices, in the order of the table. -/
def Netbox.serials (nb : Netbox) : List (Nat × Option String) :=
  nb.devices.rows.map fun row => (row.1, row.2.serial)

/-- A host has written to one device only: all others are kept, and the stamp is the
old one or the host's. -/
structure WroteOn (device : Nat) (host : HostId) (nb nb' : Netbox) : Prop where
  others : ∀ other, other ≠ device → DeviceKept other nb nb'
  serials : nb'.serials = nb.serials
  stamp : (nb'.devices.get device).map DeviceRow.osaHostId =
      (nb.devices.get device).map DeviceRow.osaHostId ∨
    (nb'.devices.get device).map DeviceRow.osaHostId = some (some host.toStr.text)

/-- A call by which a host writes to one device only. -/
structure WritesOn (device : Nat) (host : HostId) (c : NetboxCall) (nb : Netbox) : Prop where
  touches : ∀ other ∈ c.touches nb, other = device
  stamp : ∀ d ip4 ip6 stamp, c = .finalizeDevice d ip4 ip6 stamp → stamp = host.toStr.text

section Frames

variable {device other i ip : Nat} {host : HostId} {nb nb' nb'' : Netbox} {c : NetboxCall}
  {name : String}

theorem DeviceKept.refl (device : Nat) (nb : Netbox) : DeviceKept device nb nb :=
  ⟨rfl, fun _ _ => Iff.rfl, fun _ _ _ _ _ => Iff.rfl⟩

theorem DeviceKept.trans (h : DeviceKept device nb nb') (h' : DeviceKept device nb' nb'') :
    DeviceKept device nb nb'' where
  row := h'.row.trans h.row
  interfaces := fun id name => (h'.interfaces id name).trans (h.interfaces id name)
  ips := by
    intro i name hi id address
    exact (h'.ips i name ((h.interfaces i name).mpr hi) id address).trans
      (h.ips i name hi id address)

theorem WroteOn.refl (device : Nat) (host : HostId) (nb : Netbox) : WroteOn device host nb nb :=
  ⟨fun other _ => DeviceKept.refl other nb, rfl, Or.inl rfl⟩

theorem WroteOn.trans (h : WroteOn device host nb nb') (h' : WroteOn device host nb' nb'') :
    WroteOn device host nb nb'' where
  others := fun other hne => (h.others other hne).trans (h'.others other hne)
  serials := h'.serials.trans h.serials
  stamp := by
    rcases h'.stamp with hsame | hown
    · rw [hsame]
      exact h.stamp
    · exact Or.inr hown

/-- The device of an interface. -/
theorem mem_deviceOf :
    other ∈ nb.deviceOf i ↔ ∃ name, nb.interfaces.get i = some ⟨other, name⟩ := by
  unfold Netbox.deviceOf
  rw [Option.mem_toList, Option.map_eq_some_iff]
  constructor
  · rintro ⟨row, hrow, rfl⟩
    exact ⟨row.name, hrow⟩
  · rintro ⟨name, hrow⟩
    exact ⟨_, hrow, rfl⟩

/-- The device of an address. -/
theorem mem_deviceOfIp :
    other ∈ nb.deviceOfIp ip ↔
      ∃ i address name, nb.ips.get ip = some ⟨i, address⟩ ∧
        nb.interfaces.get i = some ⟨other, name⟩ := by
  unfold Netbox.deviceOfIp
  rw [List.mem_flatMap]
  constructor
  · rintro ⟨row, hrow, hdevice⟩
    obtain ⟨name, hname⟩ := mem_deviceOf.mp hdevice
    exact ⟨row.interface, row.address, name, by simpa using hrow, hname⟩
  · rintro ⟨i, address, name, hip, hi⟩
    exact ⟨⟨i, address⟩, by simpa using hip, mem_deviceOf.mpr ⟨name, hi⟩⟩

/-! ## One call -/

/-- A new interface of another device. -/
theorem deviceKept_createInterface (hne : other ≠ device) :
    DeviceKept other nb (nb.createInterface device name).2 where
  row := rfl
  interfaces := by
    intro id name'
    simp only [Netbox.createInterface, RowTable.get_insert]
    split_ifs with hid
    · subst hid
      simpa [RowTable.get_next] using fun heq : device = other => absurd heq.symm hne
    · exact Iff.rfl
  ips := fun _ _ _ _ _ => Iff.rfl

/-- An interface of another device goes. -/
theorem deviceKept_deleteInterface (h : other ∉ nb.deviceOf i) :
    DeviceKept other nb (nb.deleteInterface i) where
  row := rfl
  interfaces := by
    intro id name
    simp only [Netbox.deleteInterface, RowTable.get_deleteWhere, Option.filter_eq_some_iff]
    refine and_iff_left_of_imp fun hget => ?_
    have hid : id ≠ i := by
      rintro rfl
      exact h (mem_deviceOf.mpr ⟨name, hget⟩)
    simpa using hid
  ips := by
    intro j name hj id address
    simp only [Netbox.deleteInterface, RowTable.get_deleteWhere, Option.filter_eq_some_iff]
    refine and_iff_left_of_imp fun _ => ?_
    have hj' : j ≠ i := by
      rintro rfl
      exact h (mem_deviceOf.mpr ⟨name, hj⟩)
    simpa using hj'

/-- A new address of another device. -/
theorem deviceKept_createIp {address : String} (h : other ∉ nb.deviceOf i) :
    DeviceKept other nb (nb.createIp i address).2 := by
  unfold Netbox.createIp
  by_cases hi : i < nb.interfaces.next
  · rw [dif_pos hi]
    refine ⟨rfl, fun _ _ => Iff.rfl, ?_⟩
    intro j name hj id address'
    simp only [RowTable.get_insert]
    split_ifs with hid
    · subst hid
      have hj' : i ≠ j := by
        rintro rfl
        exact h (mem_deviceOf.mpr ⟨name, hj⟩)
      simp [hj', RowTable.get_next]
    · exact Iff.rfl
  · rw [dif_neg hi]
    exact DeviceKept.refl other nb

/-- An address moves elsewhere. -/
theorem deviceKept_moveIp (hip : other ∉ nb.deviceOfIp ip)
    (hi : other ∉ nb.deviceOf i) : DeviceKept other nb (nb.moveIp ip i) := by
  unfold Netbox.moveIp
  by_cases hlt : i < nb.interfaces.next
  · rw [dif_pos hlt]
    refine ⟨rfl, fun _ _ => Iff.rfl, ?_⟩
    intro j name hj id address
    simp only [RowTable.get_update]
    split_ifs with hid
    · subst hid
      constructor
      · intro hmoved
        obtain ⟨old, -, hold⟩ := Option.map_eq_some_iff.mp hmoved
        have hij : i = j := congrArg IpRow.interface hold
        subst hij
        exact absurd (mem_deviceOf.mpr ⟨name, hj⟩) hi
      · intro hget
        exact absurd (mem_deviceOfIp.mpr ⟨j, address, name, hget, hj⟩) hip
    · exact Iff.rfl
  · rw [dif_neg hlt]
    exact DeviceKept.refl other nb

/-- An address of another device goes. -/
theorem deviceKept_deleteIp (h : other ∉ nb.deviceOfIp ip) :
    DeviceKept other nb (nb.deleteIp ip) where
  row := rfl
  interfaces := fun _ _ => Iff.rfl
  ips := by
    intro j name hj id address
    simp only [Netbox.deleteIp, RowTable.get_deleteWhere, Option.filter_eq_some_iff]
    refine and_iff_left_of_imp fun hget => ?_
    have hid : id ≠ ip := by
      rintro rfl
      exact h (mem_deviceOfIp.mpr ⟨j, address, name, hget, hj⟩)
    simpa using hid

/-- Another device is finalized. -/
theorem deviceKept_finalizeDevice {ip4 ip6 : Option Nat} {stamp : String}
    (hne : other ≠ device) : DeviceKept other nb (nb.finalizeDevice device ip4 ip6 stamp) where
  row := by simp [Netbox.finalizeDevice, RowTable.get_update, hne]
  interfaces := fun _ _ => Iff.rfl
  ips := fun _ _ _ _ _ => Iff.rfl

/-- A finalize keeps the serials. -/
theorem serials_finalizeDevice (nb : Netbox) (device : Nat) (ip4 ip6 : Option Nat)
    (stamp : String) :
    (nb.finalizeDevice device ip4 ip6 stamp).serials = nb.serials := by
  simp only [Netbox.serials, Netbox.finalizeDevice, RowTable.update, List.map_map]
  refine List.map_congr_left fun row _ => ?_
  simp only [Function.comp_apply]
  split <;> rfl

/-- A device that a call does not touch is kept by it. -/
theorem deviceKept_serve {server : NetboxServer}
    (h : other ∉ c.touches nb) : DeviceKept other nb (Netbox.serve server c nb).2 := by
  cases c with
  | matchBySerial serial => exact DeviceKept.refl other nb
  | readInterfaces d => exact DeviceKept.refl other nb
  | createInterface d name =>
      exact deviceKept_createInterface (by simpa [NetboxCall.touches] using h)
  | deleteInterface i => exact deviceKept_deleteInterface h
  | createIp i address => exact deviceKept_createIp h
  | moveIp ip i =>
      simp only [NetboxCall.touches, List.mem_append, not_or] at h
      exact deviceKept_moveIp h.1 h.2
  | deleteIp ip => exact deviceKept_deleteIp h
  | finalizeDevice d ip4 ip6 stamp =>
      exact deviceKept_finalizeDevice (by simpa [NetboxCall.touches] using h)

/-- Only the final phase changes the rows of devices. -/
theorem devices_serve {server : NetboxServer}
    (h : ∀ d ip4 ip6 stamp, c ≠ .finalizeDevice d ip4 ip6 stamp) :
    (Netbox.serve server c nb).2.devices = nb.devices := by
  cases c with
  | createIp i address =>
      simp only [Netbox.serve, Netbox.createIp]
      split <;> rfl
  | moveIp ip i =>
      simp only [Netbox.serve, Netbox.moveIp]
      split <;> rfl
  | finalizeDevice d ip4 ip6 stamp => exact absurd rfl (h d ip4 ip6 stamp)
  | _ => rfl

/-- One more call on the device. -/
theorem WroteOn.serve {server : NetboxServer} (h : WroteOn device host nb nb')
    (hc : WritesOn device host c nb') : WroteOn device host nb (Netbox.serve server c nb').2 := by
  refine h.trans ⟨fun other hne => deviceKept_serve fun hmem => hne (hc.touches other hmem), ?_, ?_⟩
  · cases c with
    | finalizeDevice d ip4 ip6 stamp => exact serials_finalizeDevice nb' d ip4 ip6 stamp
    | _ =>
        unfold Netbox.serials
        rw [devices_serve (by simp)]
  · cases c with
    | finalizeDevice d ip4 ip6 stamp =>
        have hd : d = device := hc.touches d (by simp [NetboxCall.touches])
        have hstamp := hc.stamp d ip4 ip6 stamp rfl
        subst hd hstamp
        simp only [Netbox.serve, Netbox.finalizeDevice, RowTable.get_update, if_true]
        cases nb'.devices.get d with
        | none => exact Or.inl rfl
        | some row => exact Or.inr rfl
    | _ =>
        rw [devices_serve (by simp)]
        exact Or.inl rfl

/-! ## One reconcile -/

/-- No other device owns an interface. -/
def Ours (nb : Netbox) (device interface : Nat) : Prop :=
  ∀ other name, nb.interfaces.get interface = some ⟨other, name⟩ → other = device

/-- Our interfaces stay ours. -/
theorem WroteOn.deviceOf (h : WroteOn device host nb nb') (hi : Ours nb device i) :
    ∀ other ∈ nb'.deviceOf i, other = device := by
  intro other hother
  obtain ⟨name, hname⟩ := mem_deviceOf.mp hother
  by_contra hne
  exact hne (hi other name (((h.others other hne).interfaces i name).mp hname))

/-- So do their addresses. -/
theorem WroteOn.deviceOfIp {address : String} (h : WroteOn device host nb nb')
    (hip : nb.ips.get ip = some ⟨i, address⟩) (hi : Ours nb device i) :
    ∀ other ∈ nb'.deviceOfIp ip, other = device := by
  intro other hother
  obtain ⟨j, address', name, hget, hname⟩ := mem_deviceOfIp.mp hother
  by_contra hne
  have hold := ((h.others other hne).interfaces j name).mp hname
  have hsame := ((h.others other hne).ips j name hold ip address').mp hget
  rw [hip] at hsame
  cases hsame
  exact hne (hi other name hold)

/-- A fresh interface belongs to nobody. -/
theorem WroteOn.ours_next (h : WroteOn device host nb nb') :
    Ours nb device nb'.interfaces.next := by
  intro other name hget
  by_contra hne
  have hlater := ((h.others other hne).interfaces _ name).mpr hget
  simp [RowTable.get_next] at hlater

/-- What a read of the device at the start lists is the device's own. -/
theorem ours_of_mem {server : NetboxServer} {i : NbInterface}
    (h : i ∈ nb.readInterfaces server device) : Ours nb device i.id := by
  intro other name hget
  rw [(mem_readInterfaces h).1] at hget
  cases hget
  rfl

/-- An existing address was read. -/
theorem mem_of_existingIps {current : List NbInterface} {cidr : String}
    (h : existingIps current cidr = some (ip, i)) :
    ∃ iface ∈ current, iface.id = i ∧ ⟨ip, cidr⟩ ∈ iface.ips := by
  obtain ⟨before, after, hsplit, -⟩ := List.lookup_eq_some_iff.mp h
  have hmem : (cidr, ip, i) ∈
      current.flatMap fun i => i.ips.map fun ip => (ip.address, ip.id, i.id) := by
    rw [hsplit]
    exact List.mem_append_right _ List.mem_cons_self
  obtain ⟨iface, hiface, hmap⟩ := List.mem_flatMap.mp hmem
  obtain ⟨row, hrow, heq⟩ := List.mem_map.mp hmap
  cases heq
  exact ⟨iface, hiface, rfl, hrow⟩

/-- A current interface was read. -/
theorem mem_of_currentByName {current : List NbInterface} {i : NbInterface}
    (h : currentByName current name = some i) : i ∈ current ∧ i.name = name :=
  ⟨List.mem_reverse.mp (List.mem_of_find?_eq_some h), by simpa using List.find?_some h⟩

/-- A device that exists carries the stamp of a host. -/
def StampSet (device : Nat) (host : HostId) (nb : Netbox) : Prop :=
  ∀ row, nb.devices.get device = some row → row.osaHostId = some host.toStr.text

section Phases

variable {server : NetboxServer} {start : Netbox}

/-- One write on the device. -/
theorem runs_write (h : WroteOn device host start nb) (hc : WritesOn device host c nb) :
    Runs (Netbox.serve server) (WroteOn device host start) (WritesOn device host)
      (perform c) (fun _ => WroteOn device host start) nb :=
  runs_perform h hc (h.serve hc) (h.serve hc)

/-- An address is placed on the device. -/
theorem placeIp_runs {k : Kept} {cidr : String} (h : WroteOn device host start nb)
    (hi : Ours start device i) :
    Runs (Netbox.serve server) (WroteOn device host start) (WritesOn device host)
      (placeIp (start.readInterfaces server device) i k cidr)
      (fun _ => WroteOn device host start) nb := by
  unfold placeIp
  split
  · rename_i id cur hexisting
    obtain ⟨iface, hiface, rfl, hip⟩ := mem_of_existingIps hexisting
    split_ifs
    · refine (runs_write h ⟨?_, by simp⟩).bind fun _ nb' hnb' _ => runs_pure hnb' hnb'
      intro other hother
      rcases List.mem_append.mp hother with hother | hother
      · exact h.deviceOfIp (((mem_readInterfaces hiface).2 _).mp hip) (ours_of_mem hiface)
          other hother
      · exact h.deviceOf hi other hother
    · exact runs_pure h h
  · refine (runs_write h ⟨?_, by simp⟩).bind fun _ nb' hnb' _ => runs_pure hnb' hnb'
    exact h.deviceOf hi

/-- An interface is ensured on the device. -/
theorem ensureInterface_runs (h : WroteOn device host start nb) :
    Runs (Netbox.serve server) (WroteOn device host start) (WritesOn device host)
      (ensureInterface device (start.readInterfaces server device) name)
      (fun i nb' => WroteOn device host start nb' ∧ Ours start device i) nb := by
  unfold ensureInterface
  split
  · rename_i cur hcur
    exact runs_pure h ⟨h, ours_of_mem (mem_of_currentByName hcur).1⟩
  · have hc : WritesOn device host (.createInterface device name) nb :=
      ⟨by simp [NetboxCall.touches], by simp⟩
    exact runs_perform h hc (h.serve hc) ⟨h.serve hc, h.ours_next⟩

/-- An interface is placed on the device. -/
theorem placeInterface_runs {k : Kept} {iface : InventoryInterface}
    (h : WroteOn device host start nb) :
    Runs (Netbox.serve server) (WroteOn device host start) (WritesOn device host)
      (placeInterface device (start.readInterfaces server device) k iface)
      (fun _ => WroteOn device host start) nb := by
  refine (ensureInterface_runs h).bind fun i nb' _ hi => ?_
  exact Runs.foldlM (fun _ _ => WroteOn device host start) (fun _ _ _ h => h)
    (fun _ _ _ _ _ _ h => placeIp_runs h hi.2) hi.1

/-- A reconcile writes on its device only, wherever it stops. -/
theorem reconcile_runs (server : NetboxServer) (device : Nat) (host : HostId)
    (observed : Inventory) (start : Netbox) :
    Runs (Netbox.serve server) (WroteOn device host start) (WritesOn device host)
      (reconcile device host observed) (fun _ => WroteOn device host start) start := by
  have hstart := WroteOn.refl device host start
  have hread : WritesOn device host (.readInterfaces device) start :=
    ⟨by simp [NetboxCall.touches], by simp⟩
  refine Runs.bind
    (Q := fun current nb => current = start.readInterfaces server device ∧ nb = start)
    (runs_perform hstart hread hstart ⟨rfl, rfl⟩) ?_
  rintro current nb - ⟨rfl, rfl⟩
  refine Runs.bind (Runs.foldlM (fun _ _ => WroteOn device host nb) (fun _ _ _ h => h)
    (fun _ _ _ _ _ _ h => placeInterface_runs h) hstart) fun k nb₁ _ h₁ => ?_
  have hfinal : WritesOn device host
      (.finalizeDevice device k.primaryIp4 k.primaryIp6 host.toStr.text) nb₁ := by
    refine ⟨by simp [NetboxCall.touches], ?_⟩
    rintro d ip4 ip6 stamp ⟨⟩
    rfl
  refine Runs.bind (runs_write h₁ hfinal) fun _ nb₂ _ h₂ => ?_
  refine Runs.bind (Runs.forM (fun _ => WroteOn device host nb) (fun _ _ h => h) ?_ h₂)
    fun _ nb₃ _ h₃ => ?_
  · intro front ip back nb' hsplit h'
    split_ifs
    · exact runs_pure h' h'
    · have hmem : ip ∈ (nb.readInterfaces server device).flatMap NbInterface.ips := by
        rw [hsplit]
        exact List.mem_append_right _ List.mem_cons_self
      obtain ⟨iface, hiface, hip⟩ := List.mem_flatMap.mp hmem
      have hdelete : WritesOn device host (.deleteIp ip.id) nb' :=
        ⟨h'.deviceOfIp (((mem_readInterfaces hiface).2 ip).mp hip) (ours_of_mem hiface), by simp⟩
      exact runs_write h' hdelete
  · refine Runs.forM (fun _ => WroteOn device host nb) (fun _ _ h => h) ?_ h₃
    intro front cur back nb' hsplit h'
    split_ifs
    · exact runs_pure h' h'
    · have hmem : cur ∈ nb.readInterfaces server device := by
        rw [hsplit]
        exact List.mem_append_right _ List.mem_cons_self
      have hdelete : WritesOn device host (.deleteInterface cur.id) nb' :=
        ⟨h'.deviceOf (ours_of_mem hmem), by simp⟩
      exact runs_write h' hdelete

/-- A reconcile that gets all its answers leaves the stamp of its host. -/
theorem reconcile_stamps (observed : Inventory) (start : Netbox) :
    Runs (Netbox.serve server) (fun _ => True) (fun _ _ => True) (reconcile device host observed)
      (fun _ => StampSet device host) start := by
  refine (runs_trivial _ _).bind fun current nb _ _ => ?_
  refine (runs_trivial _ _).bind fun k nb₁ _ _ => ?_
  refine Runs.bind (Q := fun _ => StampSet device host) (runs_perform trivial trivial trivial ?_)
    fun _ nb₂ _ h₂ => ?_
  · intro row hrow
    simp only [Netbox.serve, Netbox.finalizeDevice, RowTable.get_update, if_true] at hrow
    obtain ⟨old, -, rfl⟩ := Option.map_eq_some_iff.mp hrow
    rfl
  · refine Runs.bind (Runs.forM (fun _ => StampSet device host) (fun _ _ _ => trivial) ?_ h₂)
      fun _ nb₃ _ h₃ => ?_
    · intro front ip back nb' _ h'
      split_ifs
      · exact runs_pure trivial h'
      · exact runs_perform trivial trivial trivial h'
    · refine Runs.forM (fun _ => StampSet device host) (fun _ _ _ => trivial) ?_ h₃
      intro front cur back nb' _ h'
      split_ifs
      · exact runs_pure trivial h'
      · exact runs_perform trivial trivial trivial h'

end Phases

end Frames

/-! ## Matching -/

/-- Two matches of one serial agree on everything but the stamp. -/
inductive SameMatch : SerialMatch → SerialMatch → Prop
  | none : SameMatch .none .none
  | one (r r' : DeviceRef) : r.id = r'.id → SameMatch (.one r) (.one r')
  | many (count : Nat) : SameMatch (.many count) (.many count)

section Matching

variable {server : NetboxServer} {nb nb' : Netbox} {serial : String}

/-- What a serial matches depends on the serials only. -/
theorem sameMatch_of_serials (server : NetboxServer) (h : nb'.serials = nb.serials)
    (serial : String) :
    SameMatch (nb.matchBySerial server serial) (nb'.matchBySerial server serial) := by
  have hfilter : ∀ nb : Netbox,
      (nb.devices.rows.filter fun row => row.2.serial.any (server.serialFilter serial)).map
        (fun row => (row.1, row.2.serial)) =
      nb.serials.filter fun x => x.2.any (server.serialFilter serial) := by
    intro nb
    rw [Netbox.serials, List.filter_map]
    rfl
  have hsame := (hfilter nb).trans (h ▸ (hfilter nb').symm)
  unfold Netbox.matchBySerial
  generalize
    (nb.devices.rows.filter fun row => row.2.serial.any (server.serialFilter serial)) = rows
    at hsame
  generalize (nb'.devices.rows.filter fun row => row.2.serial.any (server.serialFilter serial)) =
    rows' at hsame
  match rows, rows', hsame with
  | [], [], _ => exact .none
  | [(id, row)], [(id', row')], hsame =>
      obtain ⟨rfl, hserial⟩ : id = id' ∧ row.serial = row'.serial := by simpa using hsame
      simp only [hserial]
      split
      · exact .one _ _ rfl
      · exact .none
  | [_], _ :: _ :: _, hsame => simp at hsame
  | _ :: _ :: _, [_], hsame => simp at hsame
  | a :: b :: rows, a' :: b' :: rows', hsame =>
      have hlength : rows.length = rows'.length := by
        simpa using congrArg List.length hsame
      simp only [List.length_cons, hlength]
      exact .many _

/-- A match by serial is a device. -/
theorem matchBySerial_one {r : DeviceRef} (h : nb.matchBySerial server serial = .one r) :
    ∃ row, nb.devices.get r.id = some row ∧ r.hostId = row.osaHostId.filter (· ≠ "") := by
  unfold Netbox.matchBySerial at h
  split at h
  · cases h
  · rename_i id device hrows
    split at h
    · cases h
      have hmem : (id, device) ∈ nb.devices.rows :=
        List.mem_of_mem_filter (hrows ▸ List.mem_singleton_self _)
      exact ⟨device, RowTable.mem_rows_iff.mp hmem, rfl⟩
    · cases h
  · cases h

end Matching

/-! ## Stamps -/

/-- The device carries the stamp of a host. -/
def Stamped (nb : Netbox) (device : Nat) (host : HostId) : Prop :=
  (nb.devices.get device).map DeviceRow.osaHostId = some (some host.toStr.text)

section Stamps

variable {device : Nat} {host other : HostId} {nb nb' : Netbox} {server : NetboxServer}
  {serial : String} {r : DeviceRef}

/-- Host ids differ in their texts. -/
theorem toStr_text_inj (h : host.toStr.text = other.toStr.text) : host = other := by
  have hparse : HostId.parse host.toStr.text = HostId.parse other.toStr.text := by rw [h]
  simpa using hparse

/-- No host id is empty. -/
theorem toStr_text_ne_empty (host : HostId) : host.toStr.text ≠ "" := by
  intro h
  have hparse := HostId.parse_toStr host
  have hempty : HostId.parse "" = none := by decide +kernel
  rw [h, hempty] at hparse
  cases hparse

/-- A device stamped by another host is not taken over. -/
theorem claimedByOther_of_stamped (host : HostId)
    (hmatch : nb.matchBySerial server serial = .one r)
    (hstamp : Stamped nb r.id other) : r.claimedByOther host = decide (other ≠ host) := by
  obtain ⟨row, hrow, hclaim⟩ := matchBySerial_one hmatch
  have hown : row.osaHostId = some other.toStr.text := by
    simpa [Stamped, hrow] using hstamp
  have htext : other.toStr.text = host.toStr.text ↔ other = host :=
    ⟨toStr_text_inj, congrArg fun h : HostId => h.toStr.text⟩
  simp [DeviceRef.claimedByOther, hclaim, hown, toStr_text_ne_empty, htext]

/-- A device that is free for a host stays free after its own writes. -/
theorem WroteOn.free {start : Netbox} {r₀ : DeviceRef} (h : WroteOn r₀.id host start nb)
    (hstart : start.matchBySerial server serial = .one r₀)
    (hfree : r₀.claimedByOther host = false) :
    ∃ r, nb.matchBySerial server serial = .one r ∧ r.id = r₀.id ∧
      r.claimedByOther host = false := by
  have hsame := sameMatch_of_serials server h.serials serial
  rw [hstart] at hsame
  cases hmatch : nb.matchBySerial server serial with
  | none => rw [hmatch] at hsame; cases hsame
  | many count => rw [hmatch] at hsame; cases hsame
  | one r =>
      rw [hmatch] at hsame
      cases hsame with
      | one _ _ hid =>
          refine ⟨r, rfl, hid.symm, ?_⟩
          rcases h.stamp with hkept | hown
          · obtain ⟨row₀, hrow₀, hclaim₀⟩ := matchBySerial_one hstart
            obtain ⟨row, hrow, hclaim⟩ := matchBySerial_one hmatch
            rw [hid, hrow] at hkept
            rw [← hid] at hkept
            rw [hrow₀] at hkept
            have hsame : row.osaHostId = row₀.osaHostId := by simpa using hkept
            simpa [DeviceRef.claimedByOther, hclaim, hclaim₀, hsame] using hfree
          · have hstamp : Stamped nb r.id host := by rwa [Stamped, ← hid]
            simpa using claimedByOther_of_stamped host hmatch hstamp

end Stamps

/-! ## One upsert -/

section Upserts

variable {server : NetboxServer} {synced : Synced} {host : HostId} {observed : Inventory}
  {serial : String} {nb start : Netbox}

/-- NetBox as a complete successful reconcile of an inventory leaves it. -/
def Reconciled (server : NetboxServer) (device : Nat) (host : HostId) (observed : Inventory)
    (nb : Netbox) : Prop :=
  ∃ start, (reconcileOn server device host observed start []).1 = .ok () ∧
    (reconcileOn server device host observed start []).2.state = nb

/-- Without a device that is free for the host an attempt writes nothing. -/
theorem matchAndReconcile_quiet
    (h : ∀ r, nb.matchBySerial server serial = .one r → r.claimedByOther host = true) :
    Runs (Netbox.serve server) (fun nb' => nb' = nb) (fun c _ => c.isWrite = false)
      (matchAndReconcile serial host observed)
      (fun outcome _ => outcome ≠ .updated ∧ outcome ≠ .unchanged) nb := by
  refine Runs.bind (Q := fun found _ => found = nb.matchBySerial server serial)
    (runs_perform rfl rfl rfl rfl) ?_
  rintro found nb' rfl rfl
  cases hmatch : nb'.matchBySerial server serial with
  | none => exact runs_pure rfl (by simp)
  | one r =>
      simp only [h r hmatch, if_true]
      exact runs_pure rfl (by simp)
  | many count => exact runs_pure rfl (by simp)

/-- An attempt on a device that is free for the host writes on that device only,
wherever earlier attempts stopped. -/
theorem matchAndReconcile_writes {r : DeviceRef} (observed : Inventory)
    (hmatch : start.matchBySerial server serial = .one r)
    (hfree : r.claimedByOther host = false) (h : WroteOn r.id host start nb) :
    Runs (Netbox.serve server) (WroteOn r.id host start) (WritesOn r.id host)
      (matchAndReconcile serial host observed)
      (fun outcome nb' => outcome = .updated ∧ StampSet r.id host nb' ∧
        Reconciled server r.id host observed nb') nb := by
  obtain ⟨r', hmatch', hid, hfree'⟩ := h.free hmatch hfree
  have hread : WritesOn r.id host (.matchBySerial serial) nb :=
    ⟨by simp [NetboxCall.touches], by simp⟩
  refine Runs.bind (Q := fun (found : SerialMatch) nb' => found = .one r' ∧ nb' = nb)
    (runs_perform h hread h ⟨hmatch', rfl⟩) ?_
  rintro found nb' - ⟨rfl, rfl⟩
  simp only [hfree', Bool.false_eq_true, if_false, hid]
  have hreconcile := (reconcile_runs server r.id host observed nb').and
    ((reconcile_stamps observed nb').and
      (runs_answered (E := PortError) (reconcile r.id host observed) nb' []))
  refine Runs.bind (hreconcile.mono (fun _ h' => h.trans h'.1) (fun _ _ h' => h'.1)
    (fun _ _ _ h' => h')) ?_
  rintro u nb'' hwrote ⟨-, hstamp, hanswered⟩
  exact runs_pure hwrote ⟨rfl, hstamp, nb', hanswered⟩

/-- What an upsert does: nothing, or writes to the unique match of its serial, which
no other host has stamped. -/
inductive UpsertCase (server : NetboxServer) (synced : Synced) (host : HostId)
    (observed : Inventory) (nb : Netbox)
    (out : Except PortError UpsertOutcome × Synced × NetboxWorld) : Prop
  | quiet : out.1 ≠ .ok .updated → out.1 ≠ .ok .unchanged → out.2.1 = synced →
      out.2.2.state = nb → (∀ e ∈ out.2.2.calls, e.1.isWrite = false) →
      UpsertCase server synced host observed nb out
  | unchanged (serial : String) : usableSerial observed = some serial →
      synced.lookup host = some (contentHash serial host observed) → out.1 = .ok .unchanged →
      out.2.1 = synced → out.2.2.state = nb → out.2.2.calls = [] →
      UpsertCase server synced host observed nb out
  | wrote (serial : String) (r : DeviceRef) : usableSerial observed = some serial →
      nb.matchBySerial server serial = .one r → r.claimedByOther host = false →
      WroteOn r.id host nb out.2.2.state → (∀ e ∈ out.2.2.calls, WritesOn r.id host e.1 e.2) →
      (out.1 = .ok .updated ∧ out.2.1 = synced.put host (contentHash serial host observed) ∧
          StampSet r.id host out.2.2.state ∧
          Reconciled server r.id host observed out.2.2.state ∨
        (∃ e, out.1 = .error e) ∧ out.2.1 = synced) →
      UpsertCase server synced host observed nb out

/-- Every upsert is one of the cases. -/
theorem upsert_cases (fates : List (Fate PortError)) :
    UpsertCase server synced host observed nb
      (upsert server synced host observed ⟨nb, fates, []⟩) := by
  unfold upsert
  split
  · exact .quiet (by simp) (by simp) rfl rfl (by simp)
  · rename_i serial hserial
    dsimp only
    split
    · rename_i hsynced
      exact .unchanged serial hserial hsynced rfl rfl rfl rfl
    · by_cases hfree : ∃ r, nb.matchBySerial server serial = .one r ∧ r.claimedByOther host = false
      · obtain ⟨r, hmatch, hfree⟩ := hfree
        have hends := runs_retrying (w := ⟨nb, fates, []⟩)
          (fun nb' h' => matchAndReconcile_writes observed hmatch hfree h')
          isTransient maxTransientRetries ⟨WroteOn.refl r.id host nb, by simp⟩
        split
        · rename_i e w hout
          rw [hout] at hends
          exact .wrote serial r hserial hmatch hfree hends.state hends.calls
            (Or.inr ⟨⟨e, rfl⟩, rfl⟩)
        · rename_i outcome w hout
          rw [hout] at hends
          obtain ⟨⟨rfl, hstamp⟩, hdone⟩ := hends
          exact .wrote serial r hserial hmatch hfree hdone.state hdone.calls
            (Or.inl ⟨rfl, by simp, hstamp⟩)
      · have hquiet : ∀ r, nb.matchBySerial server serial = .one r →
            r.claimedByOther host = true := by
          intro r hmatch
          by_contra hnot
          exact hfree ⟨r, hmatch, by simpa using hnot⟩
        have hruns : ∀ nb', nb' = nb → Runs (Netbox.serve server) (fun nb' => nb' = nb)
            (fun c _ => c.isWrite = false) (matchAndReconcile serial host observed)
            (fun outcome _ => outcome ≠ .updated ∧ outcome ≠ .unchanged) nb' := by
          rintro nb' rfl
          exact matchAndReconcile_quiet hquiet
        have hends := runs_retrying (w := ⟨nb, fates, []⟩) hruns isTransient maxTransientRetries
          ⟨rfl, by simp⟩
        split
        · rename_i e w hout
          rw [hout] at hends
          exact .quiet (by simp) (by simp) rfl hends.state hends.calls
        · rename_i outcome w hout
          rw [hout] at hends
          obtain ⟨⟨hne, hne'⟩, hdone⟩ := hends
          exact .quiet (by simpa using hne) (by simpa using hne') (by simp [hne]) hdone.state
            hdone.calls

end Upserts

/-! ## Runs of upserts -/

/-- One upsert of a run, with what becomes of its calls. -/
structure UpsertStep where
  host : HostId
  observed : Inventory
  fates : List (Fate PortError)

/-- The sink and the NetBox it writes to. -/
structure SinkState where
  synced : Synced
  netbox : Netbox

/-- What an upsert of a run leaves. -/
structure UpsertResult where
  outcome : Except PortError UpsertOutcome
  calls : List (NetboxCall × Netbox)
  state : SinkState

namespace SinkState

/-- Run one upsert. -/
def upsert (server : NetboxServer) (st : SinkState) (u : UpsertStep) : UpsertResult :=
  let out := Coordinator.upsert server st.synced u.host u.observed ⟨st.netbox, u.fates, []⟩
  ⟨out.1, out.2.2.calls, ⟨out.2.1, out.2.2.state⟩⟩

/-- Run upserts one after the other. -/
def run (server : NetboxServer) (st : SinkState) (us : List UpsertStep) : SinkState :=
  us.foldl (fun st u => (st.upsert server u).state) st

end SinkState

section Runs

variable {server : NetboxServer} {st : SinkState} {u : UpsertStep} {device : Nat} {owner : HostId}

theorem SinkState.upsert_cases (server : NetboxServer) (st : SinkState) (u : UpsertStep) :
    UpsertCase server st.synced u.host u.observed st.netbox
      (Coordinator.upsert server st.synced u.host u.observed ⟨st.netbox, u.fates, []⟩) :=
  Coordinator.upsert_cases u.fates

/-- Reads touch no device. -/
theorem touches_of_not_isWrite {c : NetboxCall} {nb : Netbox} (h : c.isWrite = false) :
    c.touches nb = [] := by
  cases c <;> first | rfl | cases h

/-- A stamped device is left alone by the upserts of other hosts. -/
theorem stamped_untouched (server : NetboxServer) (hstamp : Stamped st.netbox device owner)
    (hne : u.host ≠ owner) :
    (∀ e ∈ (st.upsert server u).calls, device ∉ e.1.touches e.2) ∧
    DeviceKept device st.netbox (st.upsert server u).state.netbox := by
  cases st.upsert_cases server u with
  | quiet _ _ _ hstate hcalls =>
      refine ⟨?_, ?_⟩
      · intro e he
        rw [touches_of_not_isWrite (hcalls e he)]
        simp
      · exact hstate.symm ▸ DeviceKept.refl device st.netbox
  | unchanged serial _ _ _ _ hstate hcalls =>
      refine ⟨?_, hstate.symm ▸ DeviceKept.refl device st.netbox⟩
      intro e he
      have hnone : (st.upsert server u).calls = [] := hcalls
      simp [hnone] at he
  | wrote serial r _ hmatch hfree hwrote hcalls _ =>
      have hother : device ≠ r.id := by
        rintro rfl
        rw [claimedByOther_of_stamped u.host hmatch hstamp] at hfree
        simp [Ne.symm hne] at hfree
      exact ⟨fun e he hmem => hother ((hcalls e he).touches device hmem),
        hwrote.others device hother⟩

/-- A stamp stays. -/
theorem Stamped.upsert (hstamp : Stamped st.netbox device owner) :
    Stamped (st.upsert server u).state.netbox device owner := by
  by_cases hhost : u.host = owner
  · subst hhost
    cases st.upsert_cases server u with
    | quiet _ _ _ hstate _ =>
        have hsame : (st.upsert server u).state.netbox = st.netbox := hstate
        rwa [hsame]
    | unchanged serial _ _ _ _ hstate _ =>
        have hsame : (st.upsert server u).state.netbox = st.netbox := hstate
        rwa [hsame]
    | wrote serial r _ hmatch hfree hwrote _ _ =>
        by_cases hdevice : device = r.id
        · subst hdevice
          rcases hwrote.stamp with hkept | hown
          · exact hkept.trans hstamp
          · exact hown
        · have hkept := hwrote.others device hdevice
          unfold Stamped at hstamp ⊢
          rw [← hkept.row] at hstamp
          exact hstamp
  · have hkept := (stamped_untouched server hstamp hhost).2
    unfold Stamped at hstamp ⊢
    rw [hkept.row]
    exact hstamp

/-- A stamp survives a run. -/
theorem Stamped.run (us : List UpsertStep) (hstamp : Stamped st.netbox device owner) :
    Stamped (st.run server us).netbox device owner := by
  induction us generalizing st with
  | nil => exact hstamp
  | cons u us ih => exact ih hstamp.upsert

/-- In every run of upserts by any hosts: from the moment a device carries a host's
stamp it keeps it, and no upsert of another host touches it; every write is on the
unique match of the upsert's serial; and an upsert that reports no update has written
nothing. -/
theorem devices_owned (server : NetboxServer) (st : SinkState)
    (before between : List UpsertStep) (u : UpsertStep) :
    let now := st.run server (before ++ between)
    let out := now.upsert server u
    (∀ device owner, Stamped (st.run server before).netbox device owner →
      Stamped now.netbox device owner ∧ Stamped out.state.netbox device owner ∧
      (u.host ≠ owner → (∀ e ∈ out.calls, device ∉ e.1.touches e.2) ∧
        DeviceKept device now.netbox out.state.netbox)) ∧
    (∀ e ∈ out.calls, e.1.isWrite = true →
      ∃ serial r, usableSerial u.observed = some serial ∧
        now.netbox.matchBySerial server serial = .one r ∧
        ∀ device ∈ e.1.touches e.2, device = r.id) ∧
    (∀ outcome, out.outcome = .ok outcome → outcome ≠ .updated →
      ∀ e ∈ out.calls, e.1.isWrite = false) := by
  intro now out
  refine ⟨?_, ?_, ?_⟩
  · intro device owner hstamp
    have hnow : Stamped now.netbox device owner := by
      simpa only [now, SinkState.run, List.foldl_append] using hstamp.run between
    exact ⟨hnow, hnow.upsert, fun hne => stamped_untouched server hnow hne⟩
  · intro e he hwrite
    cases now.upsert_cases server u with
    | quiet _ _ _ _ hcalls => exact absurd (hcalls e he) (by simp [hwrite])
    | unchanged serial _ _ _ _ _ hcalls =>
        have hnone : out.calls = [] := hcalls
        simp [hnone] at he
    | wrote serial r hserial hmatch _ _ hcalls _ =>
        exact ⟨serial, r, hserial, hmatch, (hcalls e he).touches⟩
  · intro outcome houtcome hne
    cases now.upsert_cases server u with
    | quiet _ _ _ _ hcalls => exact hcalls
    | unchanged serial _ _ _ _ _ hcalls =>
        have hnone : out.calls = [] := hcalls
        simp [hnone]
    | wrote serial r _ _ _ _ _ hresult =>
        rcases hresult with ⟨hupdated, -⟩ | ⟨⟨e, herror⟩, -⟩
        · have hsame := houtcome.symm.trans hupdated
          cases hsame
          exact absurd rfl hne
        · have hsame := houtcome.symm.trans herror
          cases hsame

end Runs

/-- A host that claims a device, with one lost answer on the way. -/
def sampleClaim : UpsertStep where
  host := sampleHost
  observed := sampleObserved
  fates := [.answered, .answered, .answered, .lost (.backend "timed out")]

/-- Another host with the same serial. -/
def sampleClone : UpsertStep where
  host := ⟨.lit (List.replicate 32 8)⟩
  observed := sampleObserved
  fates := []

/-- The claim is retried and the device stamped; the clone collides and touches
nothing. -/
theorem devices_owned_clone :
    let now := (SinkState.mk ∅ sampleNetbox).run sampleServer [sampleClaim]
    let out := now.upsert sampleServer sampleClone
    Stamped now.netbox 1 sampleHost ∧ out.outcome = .ok .hostCollision ∧
    (∀ e ∈ out.calls, 1 ∉ e.1.touches e.2) ∧ Stamped out.state.netbox 1 sampleHost ∧
    (∀ e ∈ out.calls, e.1.isWrite = false) := by
  have howned := devices_owned sampleServer (SinkState.mk ∅ sampleNetbox) [sampleClaim] []
    sampleClone
  have hstamp : Stamped ((SinkState.mk ∅ sampleNetbox).run sampleServer [sampleClaim]).netbox 1
      sampleHost := by
    unfold Stamped
    decide +kernel
  have houtcome : (((SinkState.mk ∅ sampleNetbox).run sampleServer [sampleClaim]).upsert
      sampleServer sampleClone).outcome = .ok .hostCollision := by
    decide +kernel
  obtain ⟨-, hafter, huntouched⟩ := howned.1 1 sampleHost hstamp
  exact ⟨hstamp, houtcome, (huntouched (by decide)).1, hafter,
    howned.2.2 _ houtcome (by decide)⟩

end Coordinator
end OpenSsmAgent
