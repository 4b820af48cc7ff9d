import OpenSsmAgent.Coordinator.NetboxOwnership

/-!
# Convergence of the reconcile

A reconcile works from one read of the device while it creates, moves and deletes.
The proof follows the two loops with a ghost record of what was placed: the seat of
every observed interface gone through, and the row of every address put on it.  All
other rows are still as they were read, and that is what the last phase deletes.

Main results:

- Theorem {lit}`reconcile_settles`: a reconcile that gets all its answers leaves the
  device exactly as observed, and every place where it may stop is one from which the
  next attempt can start.
- Theorem {lit}`reconcile_converges`: any number of attempts, then one that succeeds.
- Theorem {lit}`repeat_reconcile_iff`: a repeat of a successful reconcile writes no row
  exactly if no address was reported on two interfaces.
-/

open Framing RemoteCalls

namespace OpenSsmAgent
namespace Coordinator

open Domain Proto Wire

/-! ## The states of a device -/

/-- The interfaces of a device have different names. -/
def DistinctNames (device : Nat) (nb : Netbox) : Prop :=
  ∀ id id' name, nb.interfaces.get id = some ⟨device, name⟩ →
    nb.interfaces.get id' = some ⟨device, name⟩ → id = id'

/-- What every attempt may start from. -/
structure Reconcilable (device : Nat) (nb : Netbox) : Prop where
  names : DistinctNames device nb
  exists_row : (nb.devices.get device).isSome = true

/-- The names of the interfaces of a device. -/
def Netbox.interfaceNames (nb : Netbox) (device : Nat) : List String :=
  nb.interfaces.column (fun row => row.device = device) InterfaceRow.name

/-- The addresses on an interface. -/
def Netbox.addressesOn (nb : Netbox) (interface : Nat) : List String :=
  nb.ips.column (fun row => row.interface = interface) IpRow.address

/-- The observed addresses in order, each with the name of its interface. -/
def observedAddresses (observed : Inventory) : List (String × String) :=
  observed.interfaces.flatMap fun iface => (cidrs iface).map fun cidr => (iface.name.text, cidr)

/-- A primary address points at the row of the first observed address of its kind. -/
def PrimarySet (nb : Netbox) (device : Nat) (first : Option (String × String))
    (primary : Option Nat) : Prop :=
  match first with
  | none => primary = none
  | some (name, cidr) =>
      ∃ ip i, primary = some ip ∧ nb.ips.get ip = some ⟨i, cidr⟩ ∧
        nb.interfaces.get i = some ⟨device, name⟩

/-- The device is as observed: the interfaces by name, on each one row for each of its
addresses and no other, the stamp, and the primary addresses. -/
structure Settled (device : Nat) (host : HostId) (observed : Inventory) (nb : Netbox) : Prop where
  names : (nb.interfaceNames device).Perm (observed.interfaces.map fun iface => iface.name.text)
  rows : ∀ iface ∈ observed.interfaces, ∀ i,
    nb.interfaces.get i = some ⟨device, iface.name.text⟩ → (nb.addressesOn i).Perm (cidrs iface)
  stamp : Stamped nb device host
  primaryIp4 : ∀ row, nb.devices.get device = some row → PrimarySet nb device
    ((observedAddresses observed).find? fun a => isIpv4Cidr a.2) row.primaryIp4
  primaryIp6 : ∀ row, nb.devices.get device = some row → PrimarySet nb device
    ((observedAddresses observed).find? fun a => !isIpv4Cidr a.2) row.primaryIp6

/-! ## The ghost record -/

/-- A row that was put in its place: its number, interface and address. -/
structure Placed where
  ip : Nat
  interface : Nat
  cidr : String
deriving DecidableEq

/-- An observed interface with the number of its interface in NetBox. -/
structure Seat where
  iface : InventoryInterface
  interface : Nat

/-- What is remembered of the rows placed so far. -/
def Kept.of (placed : List Placed) : Kept :=
  placed.foldl (fun k p => k.keep p.cidr p.ip) ⟨none, none, []⟩

/-- The interface and address of every row to be placed on the seats. -/
def slots (seats : List Seat) : List (Nat × String) :=
  seats.flatMap fun s => (cidrs s.iface).map fun cidr => (s.interface, cidr)

theorem Kept.of_snoc (placed : List Placed) (p : Placed) :
    Kept.of (placed ++ [p]) = (Kept.of placed).keep p.cidr p.ip := by
  simp [Kept.of]

theorem Kept.of_keptIpIds (placed : List Placed) :
    (Kept.of placed).keptIpIds = placed.map Placed.ip := by
  induction placed using List.reverseRecOn with
  | nil => rfl
  | append_singleton placed p ih => simp [Kept.of_snoc, Kept.keep, ih]

/-- A primary address is the first placed row whose address passes its test. -/
theorem Kept.of_primary (primary : Kept → Option Nat) (test : String → Bool)
    (hnone : primary ⟨none, none, []⟩ = none)
    (hkeep : ∀ k cidr ip,
      primary (Kept.keep k cidr ip) = if test cidr then (primary k).or (some ip) else primary k)
    (placed : List Placed) :
    primary (Kept.of placed) = (placed.find? fun p => test p.cidr).map Placed.ip := by
  induction placed using List.reverseRecOn with
  | nil => exact hnone
  | append_singleton placed p ih =>
      rw [Kept.of_snoc, hkeep, ih, List.find?_append]
      cases placed.find? fun p => test p.cidr <;> cases hp : test p.cidr <;> simp [hp]

/-- In the middle of a reconcile: no interface is lost, new ones are seats with new
names, the placed rows are in their places, and all other rows are as they were. -/
structure Mid (start : Netbox) (device : Nat) (seats : List Seat) (placed : List Placed)
    (nb : Netbox) : Prop where
  devices : nb.devices = start.devices
  next : start.interfaces.next ≤ nb.interfaces.next
  interfaces : ∀ id row, start.interfaces.get id = some row → nb.interfaces.get id = some row
  made : ∀ id name, nb.interfaces.get id = some ⟨device, name⟩ →
    start.interfaces.get id = some ⟨device, name⟩ ∨
    (∃ s ∈ seats, s.interface = id ∧ s.iface.name.text = name) ∧ start.interfaces.next ≤ id ∧
      ∀ id', start.interfaces.get id' ≠ some ⟨device, name⟩
  seated : ∀ s ∈ seats, nb.interfaces.get s.interface = some ⟨device, s.iface.name.text⟩
  unmoved : ∀ ip, ip ∉ placed.map Placed.ip → nb.ips.get ip = start.ips.get ip
  inPlace : ∀ p ∈ placed, nb.ips.get p.ip = some ⟨p.interface, p.cidr⟩
  address : ∀ p ∈ placed, ∀ row, start.ips.get p.ip = some row → row.address = p.cidr

section Progress

variable {server : NetboxServer} {start nb : Netbox} {device : Nat} {seats : List Seat}
  {placed : List Placed}

theorem Mid.initial (start : Netbox) (device : Nat) : Mid start device [] [] start where
  devices := rfl
  next := le_rfl
  interfaces := fun _ _ h => h
  made := fun _ _ h => Or.inl h
  seated := by simp
  unmoved := fun _ _ => rfl
  inPlace := by simp
  address := by simp

/-- The names stay different: new interfaces have new names. -/
theorem Mid.distinctNames (h : Mid start device seats placed nb)
    (hstart : DistinctNames device start)
    (hseats : (seats.map fun s => s.iface.name.text).Nodup) : DistinctNames device nb := by
  intro id id' name hid hid'
  rcases h.made id name hid with hold | ⟨⟨s, hs, rfl, rfl⟩, -, hnew⟩
  · rcases h.made id' name hid' with hold' | ⟨-, -, hnew'⟩
    · exact hstart id id' name hold hold'
    · exact absurd hold (hnew' id)
  · rcases h.made id' _ hid' with hold' | ⟨⟨s', hs', rfl, hname⟩, -, -⟩
    · exact absurd hold' (hnew id')
    · rw [List.inj_on_of_nodup_map hseats hs hs' hname.symm]

/-- A row that has been read and whose address was not placed yet is where it was. -/
theorem Mid.existing (h : Mid start device seats placed nb) {ip i : Nat} {cidr : String}
    (hip : start.ips.get ip = some ⟨i, cidr⟩) (hcidr : cidr ∉ placed.map Placed.cidr) :
    ip ∉ placed.map Placed.ip ∧ nb.ips.get ip = some ⟨i, cidr⟩ := by
  have hnot : ip ∉ placed.map Placed.ip := by
    intro hmem
    obtain ⟨p, hp, rfl⟩ := List.mem_map.mp hmem
    have haddress : cidr = p.cidr := h.address p hp _ hip
    exact hcidr (haddress ▸ List.mem_map_of_mem hp)
  exact ⟨hnot, (h.unmoved ip hnot).trans hip⟩

/-- Putting a row in its place. -/
theorem Mid.place (h : Mid start device seats placed nb) {nb' : Netbox} {p : Placed}
    (hfresh : p.ip ∉ placed.map Placed.ip)
    (haddress : ∀ row, start.ips.get p.ip = some row → row.address = p.cidr)
    (hdevices : nb'.devices = nb.devices) (hinterfaces : nb'.interfaces = nb.interfaces)
    (hips : ∀ ip, nb'.ips.get ip =
      if ip = p.ip then some ⟨p.interface, p.cidr⟩ else nb.ips.get ip) :
    Mid start device seats (placed ++ [p]) nb' where
  devices := hdevices.trans h.devices
  next := hinterfaces ▸ h.next
  interfaces := hinterfaces ▸ h.interfaces
  made := hinterfaces ▸ h.made
  seated := hinterfaces ▸ h.seated
  unmoved := by
    intro ip hip
    simp only [List.map_append, List.map_cons, List.map_nil, List.mem_append, List.mem_singleton,
      not_or] at hip
    rw [hips, if_neg hip.2]
    exact h.unmoved ip hip.1
  inPlace := by
    intro q hq
    rcases List.mem_append.mp hq with hq | hq
    · have hne : q.ip ≠ p.ip := fun heq => hfresh (heq ▸ List.mem_map_of_mem hq)
      rw [hips, if_neg hne]
      exact h.inPlace q hq
    · rw [List.mem_singleton.mp hq, hips, if_pos rfl]
  address := by
    intro q hq
    rcases List.mem_append.mp hq with hq | hq
    · exact h.address q hq
    · rw [List.mem_singleton.mp hq]
      exact haddress

/-- An existing interface takes its seat. -/
theorem Mid.seat (h : Mid start device seats placed nb) {s : Seat}
    (hs : nb.interfaces.get s.interface = some ⟨device, s.iface.name.text⟩) :
    Mid start device (seats ++ [s]) placed nb where
  devices := h.devices
  next := h.next
  interfaces := h.interfaces
  made := by
    intro id name hid
    refine (h.made id name hid).imp_right fun hmade => ⟨?_, hmade.2⟩
    obtain ⟨s', hs', heq⟩ := hmade.1
    exact ⟨s', List.mem_append_left _ hs', heq⟩
  seated := by
    intro s' hs'
    rcases List.mem_append.mp hs' with hs' | hs'
    · exact h.seated s' hs'
    · rw [List.mem_singleton.mp hs']
      exact hs
  unmoved := h.unmoved
  inPlace := h.inPlace
  address := h.address

/-- A new interface with a new name takes its seat. -/
theorem Mid.create (h : Mid start device seats placed nb) (iface : InventoryInterface)
    (hnew : ∀ id, start.interfaces.get id ≠ some ⟨device, iface.name.text⟩) :
    Mid start device (seats ++ [⟨iface, nb.interfaces.next⟩]) placed
      (nb.createInterface device iface.name.text).2 where
  devices := h.devices
  next := by
    have hnext := h.next
    simp only [Netbox.createInterface, RowTable.insert_next]
    omega
  interfaces := by
    intro id row hrow
    have hget := h.interfaces id row hrow
    have hne : id ≠ nb.interfaces.next := (RowTable.lt_of_get hget).ne
    simp only [Netbox.createInterface, RowTable.get_insert, if_neg hne, hget]
  made := by
    intro id name hid
    simp only [Netbox.createInterface, RowTable.get_insert] at hid
    split_ifs at hid with hnext
    · cases hid
      exact Or.inr ⟨⟨_, List.mem_append_right _ (List.mem_singleton_self _), hnext.symm, rfl⟩,
        hnext ▸ h.next, hnew⟩
    · refine (h.made id name hid).imp_right fun hmade => ⟨?_, hmade.2⟩
      obtain ⟨s', hs', heq⟩ := hmade.1
      exact ⟨s', List.mem_append_left _ hs', heq⟩
  seated := by
    intro s hs
    simp only [Netbox.createInterface, RowTable.get_insert]
    rcases List.mem_append.mp hs with hs | hs
    · have hget := h.seated s hs
      rw [if_neg (RowTable.lt_of_get hget).ne, hget]
    · rw [List.mem_singleton.mp hs, if_pos rfl]
  unmoved := h.unmoved
  inPlace := h.inPlace
  address := h.address

end Progress

/-! ## The two loops -/

section Loops

variable {server : NetboxServer} {start nb : Netbox} {device : Nat} {seats : List Seat}
  {placed : List Placed}

/-- The rule of the loops: every place where they may stop is one to start from. -/
abbrev LoopRuns (server : NetboxServer) (device : Nat) (p : NetboxProg Kept)
    (Q : Kept → Netbox → Prop) (nb : Netbox) : Prop :=
  Runs (Netbox.serve server) (Reconcilable device) (fun _ _ => True) p Q nb

theorem Mid.reconcilable (h : Mid start device seats placed nb) (hstart : Reconcilable device start)
    (hseats : (seats.map fun s => s.iface.name.text).Nodup) : Reconcilable device nb :=
  ⟨h.distinctNames hstart.names hseats, h.devices ▸ hstart.exists_row⟩

/-- One address: reuse its row, moving it if needed, or create it. -/
theorem placeIp_mid (h : Mid start device seats placed nb) (hstart : Reconcilable device start)
    (hseats : (seats.map fun s => s.iface.name.text).Nodup) {s : Seat} (hs : s ∈ seats)
    {cidr : String} (hcidr : cidr ∉ placed.map Placed.cidr) :
    LoopRuns server device
      (placeIp (start.readInterfaces server device) s.interface (Kept.of placed) cidr)
      (fun k nb' => ∃ p, p.interface = s.interface ∧ p.cidr = cidr ∧
        k = Kept.of (placed ++ [p]) ∧ Mid start device seats (placed ++ [p]) nb') nb := by
  have hI := h.reconcilable hstart hseats
  have hlt : s.interface < nb.interfaces.next := RowTable.lt_of_get (h.seated s hs)
  unfold placeIp
  split
  · rename_i ip cur hexisting
    obtain ⟨iface, hiface, rfl, hip⟩ := mem_of_existingIps hexisting
    have hread := ((mem_readInterfaces hiface).2 _).mp hip
    obtain ⟨hnot, hnow⟩ := h.existing hread hcidr
    have hof := Kept.of_snoc placed ⟨ip, s.interface, cidr⟩
    have haddress : ∀ row, start.ips.get ip = some row → row.address = cidr := by
      intro row hrow
      rw [hread] at hrow
      cases hrow
      rfl
    split_ifs with hmove
    · have hmoved : Mid start device seats (placed ++ [⟨ip, s.interface, cidr⟩])
          (nb.moveIp ip s.interface) := by
        refine h.place hnot haddress ?_ ?_ ?_ <;> simp only [Netbox.moveIp, dif_pos hlt]
        intro id
        rw [RowTable.get_update]
        split_ifs with hid
        · rw [hid, hnow]
          rfl
        · rfl
      have hI' := hmoved.reconcilable hstart hseats
      refine Runs.bind (Q := fun _ nb' => nb' = nb.moveIp ip s.interface)
        (runs_perform hI trivial hI' rfl) ?_
      rintro - nb' - rfl
      exact runs_pure hI' ⟨_, rfl, rfl, hof.symm, hmoved⟩
    · -- the row is on its interface already
      have hstay : iface.id = s.interface := not_not.mp hmove
      have hkept : Mid start device seats (placed ++ [⟨ip, s.interface, cidr⟩]) nb := by
        refine h.place hnot haddress rfl rfl ?_
        intro id
        split_ifs with hid
        · rw [hid, hnow, hstay]
        · rfl
      exact runs_pure hI ⟨_, rfl, rfl, hof.symm, hkept⟩
  · have hnot : nb.ips.next ∉ placed.map Placed.ip := by
      intro hmem
      obtain ⟨p, hp, heq⟩ := List.mem_map.mp hmem
      have hget := h.inPlace p hp
      rw [heq, RowTable.get_next] at hget
      cases hget
    have haddress : ∀ row, start.ips.get nb.ips.next = some row → row.address = cidr := by
      intro row hrow
      rw [← h.unmoved _ hnot, RowTable.get_next] at hrow
      cases hrow
    have hmade : Mid start device seats (placed ++ [⟨nb.ips.next, s.interface, cidr⟩])
        (nb.createIp s.interface cidr).2 := by
      refine h.place hnot haddress ?_ ?_ ?_ <;> simp only [Netbox.createIp, dif_pos hlt]
      intro id
      exact RowTable.get_insert _ _ _
    have hI' := hmade.reconcilable hstart hseats
    have hof := Kept.of_snoc placed ⟨nb.ips.next, s.interface, cidr⟩
    refine Runs.bind (Q := fun (ip : Nat) nb' => ip = nb.ips.next ∧
      nb' = (nb.createIp s.interface cidr).2) (runs_perform hI trivial hI' ⟨rfl, rfl⟩) ?_
    rintro ip nb' - ⟨rfl, rfl⟩
    exact runs_pure hI' ⟨⟨nb.ips.next, s.interface, cidr⟩, rfl, rfl, hof.symm, hmade⟩

/-- The addresses of one interface. -/
theorem placeIps_mid (h : Mid start device seats placed nb) (hstart : Reconcilable device start)
    (hseats : (seats.map fun s => s.iface.name.text).Nodup) {s : Seat} (hs : s ∈ seats)
    (hcidrs : (placed.map Placed.cidr ++ cidrs s.iface).Nodup) :
    LoopRuns server device
      ((cidrs s.iface).foldlM (placeIp (start.readInterfaces server device) s.interface)
        (Kept.of placed))
      (fun k nb' => ∃ placed', k = Kept.of placed' ∧ Mid start device seats placed' nb' ∧
        placed'.map (fun p => (p.interface, p.cidr)) =
          placed.map (fun p => (p.interface, p.cidr)) ++
            (cidrs s.iface).map fun cidr => (s.interface, cidr)) nb := by
  refine Runs.foldlM (fun front k nb' => ∃ placed', k = Kept.of placed' ∧
    Mid start device seats placed' nb' ∧ placed'.map (fun p => (p.interface, p.cidr)) =
      placed.map (fun p => (p.interface, p.cidr)) ++ front.map fun cidr => (s.interface, cidr))
    ?_ ?_ ⟨placed, rfl, h, by simp⟩
  · rintro front k nb' ⟨placed', -, h', -⟩
    exact h'.reconcilable hstart hseats
  · rintro front cidr back k nb' hsplit ⟨placed', rfl, h', hslots⟩
    have haddresses : placed'.map Placed.cidr = placed.map Placed.cidr ++ front := by
      have hsnd := congrArg (List.map Prod.snd) hslots
      simpa [Function.comp_def] using hsnd
    have hnot : cidr ∉ placed'.map Placed.cidr := by
      rw [hsplit, ← List.append_assoc, ← haddresses] at hcidrs
      intro hmem
      exact (List.disjoint_of_nodup_append hcidrs) hmem List.mem_cons_self
    refine (placeIp_mid h' hstart hseats hs hnot).post ?_
    rintro k nb'' - ⟨p, hinterface, hcidr, rfl, h''⟩
    exact ⟨placed' ++ [p], rfl, h'', by simp [hslots, hinterface, hcidr]⟩

theorem currentByName_eq_none {name : String}
    (h : currentByName (start.readInterfaces server device) name = none) :
    ∀ id, start.interfaces.get id ≠ some ⟨device, name⟩ := by
  intro id hid
  obtain ⟨i, hi, -, hname⟩ := exists_mem_readInterfaces server hid
  have hnone := List.find?_eq_none.mp h i (List.mem_reverse.mpr hi)
  simp [hname] at hnone

/-- One interface: take or make its seat, then place its addresses. -/
theorem placeInterface_mid (h : Mid start device seats placed nb)
    (hstart : Reconcilable device start) {iface : InventoryInterface}
    (hseats : (seats.map (fun s => s.iface.name.text) ++ [iface.name.text]).Nodup)
    (hcidrs : (placed.map Placed.cidr ++ cidrs iface).Nodup)
    (hslots : placed.map (fun p => (p.interface, p.cidr)) = slots seats) :
    LoopRuns server device
      (placeInterface device (start.readInterfaces server device) (Kept.of placed) iface)
      (fun k nb' => ∃ s placed', s.iface = iface ∧ k = Kept.of placed' ∧
        Mid start device (seats ++ [s]) placed' nb' ∧
        placed'.map (fun p => (p.interface, p.cidr)) = slots (seats ++ [s])) nb := by
  have hI : Reconcilable device nb :=
    h.reconcilable hstart ((List.nodup_append.mp hseats).1)
  have hensure : Runs (Netbox.serve server) (Reconcilable device) (fun _ _ => True)
      (ensureInterface device (start.readInterfaces server device) iface.name.text)
      (fun i nb' => Mid start device (seats ++ [⟨iface, i⟩]) placed nb') nb := by
    unfold ensureInterface
    split
    · rename_i cur hcur
      obtain ⟨hmem, hname⟩ := mem_of_currentByName hcur
      have hget := h.interfaces _ _ (mem_readInterfaces hmem).1
      rw [hname] at hget
      exact runs_pure hI (h.seat hget)
    · rename_i hnone
      have hmade := h.create iface (currentByName_eq_none hnone)
      have hI' := hmade.reconcilable hstart (by simpa using hseats)
      exact runs_perform hI trivial hI' hmade
  refine hensure.bind fun i nb' _ hseat => ?_
  refine (placeIps_mid hseat hstart (by simpa using hseats)
    (List.mem_append_right seats (List.mem_singleton_self (⟨iface, i⟩ : Seat))) hcidrs).post ?_
  rintro k nb'' - ⟨placed', rfl, hmid, hplaced⟩
  exact ⟨⟨iface, i⟩, placed', rfl, rfl, hmid, by simp [hplaced, hslots, slots]⟩

/-- The first two phases place every observed address. -/
theorem placeAll_mid {observed : Inventory} (hstart : Reconcilable device start)
    (hnames : (observed.interfaces.map fun iface => iface.name.text).Nodup)
    (haddresses : (observed.interfaces.flatMap cidrs).Nodup) :
    LoopRuns server device
      (observed.interfaces.foldlM
        (placeInterface device (start.readInterfaces server device)) ⟨none, none, []⟩)
      (fun k nb' => ∃ seats placed, seats.map Seat.iface = observed.interfaces ∧
        k = Kept.of placed ∧ Mid start device seats placed nb' ∧
        placed.map (fun p => (p.interface, p.cidr)) = slots seats) start := by
  refine Runs.foldlM (fun front k nb' => ∃ seats placed, seats.map Seat.iface = front ∧
    k = Kept.of placed ∧ Mid start device seats placed nb' ∧
    placed.map (fun p => (p.interface, p.cidr)) = slots seats ∧
    (front.map fun iface => iface.name.text).Nodup) ?_ ?_
    ⟨[], [], rfl, rfl, Mid.initial start device, rfl, by simp⟩ |>.post ?_
  · rintro front k nb' ⟨seats, placed, rfl, -, hmid, -, hnodup⟩
    exact hmid.reconcilable hstart (by simpa [Function.comp_def] using hnodup)
  · rintro front iface back k nb' hsplit ⟨seats, placed, rfl, rfl, hmid, hslots, -⟩
    have hfront : (seats.map (fun s => s.iface.name.text) ++ [iface.name.text]).Nodup := by
      rw [hsplit] at hnames
      refine hnames.sublist ?_
      simp [Function.comp_def]
    have hcidrs : (placed.map Placed.cidr ++ cidrs iface).Nodup := by
      have hplaced : placed.map Placed.cidr = (seats.map Seat.iface).flatMap cidrs := by
        have hsnd := congrArg (List.map Prod.snd) hslots
        simpa [slots, List.map_flatMap, List.flatMap_map, Function.comp_def] using hsnd
      rw [hsplit] at haddresses
      refine haddresses.sublist ?_
      simp [hplaced]
    refine (placeInterface_mid hmid hstart hfront hcidrs hslots).post ?_
    rintro k nb'' - ⟨s, placed', rfl, rfl, hmid', hslots'⟩
    exact ⟨seats ++ [s], placed', by simp, rfl, hmid', hslots',
      by simpa [Function.comp_def] using hfront⟩
  · rintro k nb' - ⟨seats, placed, hseats, hk, hmid, hslots, -⟩
    exact ⟨seats, placed, hseats, hk, hmid, hslots⟩

end Loops

/-! ## The deletions -/

section Deletions

variable {server : NetboxServer} {nb : Netbox} {device : Nat}

theorem Reconcilable.of_fewer {nb' : Netbox} (h : Reconcilable device nb)
    (hdevices : nb'.devices = nb.devices)
    (hfewer : ∀ id row, nb'.interfaces.get id = some row → nb.interfaces.get id = some row) :
    Reconcilable device nb' :=
  ⟨fun id id' name hid hid' => h.names id id' name (hfewer id _ hid) (hfewer id' _ hid'),
    hdevices ▸ h.exists_row⟩

/-- Deleting the rows that are not kept. -/
theorem deleteIps_runs (h : Reconcilable device nb) (rows : List NbIp) (keep : List Nat) :
    Runs (Netbox.serve server) (Reconcilable device) (fun _ _ => True)
      (rows.forM fun ip => if ip.id ∉ keep then NetboxDevices.deleteIp ip.id else pure ())
      (fun _ nb' => nb'.devices = nb.devices ∧ nb'.interfaces = nb.interfaces ∧
        ∀ id, nb'.ips.get id =
          if id ∈ rows.map NbIp.id ∧ id ∉ keep then none else nb.ips.get id) nb := by
  refine Runs.forM (fun (front : List NbIp) (nb' : Netbox) => nb'.devices = nb.devices ∧
    nb'.interfaces = nb.interfaces ∧ ∀ id, nb'.ips.get id =
      if id ∈ front.map NbIp.id ∧ id ∉ keep then none else nb.ips.get id)
    ?_ ?_ ⟨rfl, rfl, by simp⟩
  · rintro front nb' ⟨hdevices, hinterfaces, -⟩
    exact h.of_fewer hdevices fun id row hrow => hinterfaces ▸ hrow
  · rintro front ip back nb' - ⟨hdevices, hinterfaces, hips⟩
    have hI' : Reconcilable device nb' :=
      h.of_fewer hdevices fun id row hrow => hinterfaces ▸ hrow
    split_ifs with hkeep
    · refine runs_pure hI' ⟨hdevices, hinterfaces, ?_⟩
      intro id
      rw [hips]
      refine if_congr ?_ rfl rfl
      simp only [List.map_append, List.map_cons, List.map_nil, List.mem_append, List.mem_singleton]
      constructor
      · exact fun hid => ⟨Or.inl hid.1, hid.2⟩
      · rintro ⟨hid | rfl, hnot⟩
        · exact ⟨hid, hnot⟩
        · exact absurd hkeep hnot
    · refine runs_perform hI' trivial (h.of_fewer hdevices fun id row hrow => hinterfaces ▸ hrow)
        ⟨hdevices, hinterfaces, ?_⟩
      intro id
      simp only [Netbox.serve, Netbox.deleteIp, RowTable.get_deleteWhere, hips]
      by_cases hid : id = ip.id
      · subst hid
        simp [hkeep]
      · have hcong : (id ∈ (front ++ [ip]).map NbIp.id ∧ id ∉ keep) ↔
            (id ∈ front.map NbIp.id ∧ id ∉ keep) := by
          simp [hid]
        rw [if_congr hcong rfl rfl]
        split_ifs
        · rfl
        · cases nb.ips.get id <;> simp [hid]

/-- Deleting the interfaces that are not reported, on which no row is left. -/
theorem deleteInterfaces_runs (h : Reconcilable device nb) (current : List NbInterface)
    (names : List String)
    (hempty : ∀ cur ∈ current, cur.name ∉ names → ∀ ip row, nb.ips.get ip = some row →
      row.interface ≠ cur.id) :
    Runs (Netbox.serve server) (Reconcilable device) (fun _ _ => True)
      (current.forM fun cur =>
        if cur.name ∉ names then NetboxDevices.deleteInterface cur.id else pure ())
      (fun _ nb' => nb'.devices = nb.devices ∧ (∀ ip, nb'.ips.get ip = nb.ips.get ip) ∧
        ∀ id row, nb'.interfaces.get id = some row ↔
          nb.interfaces.get id = some row ∧ ∀ cur ∈ current, cur.id = id → cur.name ∈ names)
      nb := by
  refine Runs.forM (fun (front : List NbInterface) (nb' : Netbox) => nb'.devices = nb.devices ∧
    (∀ ip, nb'.ips.get ip = nb.ips.get ip) ∧
    ∀ id row, nb'.interfaces.get id = some row ↔
      nb.interfaces.get id = some row ∧ ∀ cur ∈ front, cur.id = id → cur.name ∈ names)
    ?_ ?_ ⟨rfl, fun _ => rfl, by simp⟩
  · rintro front nb' ⟨hdevices, -, hinterfaces⟩
    exact h.of_fewer hdevices fun id row hrow => ((hinterfaces id row).mp hrow).1
  · rintro front cur back nb' hsplit ⟨hdevices, hips, hinterfaces⟩
    have hI' : Reconcilable device nb' :=
      h.of_fewer hdevices fun id row hrow => ((hinterfaces id row).mp hrow).1
    have hmem : cur ∈ current := hsplit ▸ List.mem_append_right _ List.mem_cons_self
    split_ifs with hname
    · refine runs_pure hI' ⟨hdevices, hips, fun id row => ?_⟩
      rw [hinterfaces]
      refine and_congr_right fun _ => ⟨?_, fun hall c hc => hall c (List.mem_append_left _ hc)⟩
      intro hall c hc hid
      rcases List.mem_append.mp hc with hc | hc
      · exact hall c hc hid
      · rwa [List.mem_singleton.mp hc]
    · have hdone : ∀ id row, (nb'.deleteInterface cur.id).interfaces.get id = some row ↔
          nb.interfaces.get id = some row ∧
            ∀ c ∈ front ++ [cur], c.id = id → c.name ∈ names := by
        intro id row
        simp only [Netbox.deleteInterface, RowTable.get_deleteWhere, Option.filter_eq_some_iff,
          hinterfaces]
        constructor
        · rintro ⟨⟨hget, hall⟩, hne⟩
          refine ⟨hget, fun c hc hid => ?_⟩
          rcases List.mem_append.mp hc with hc | hc
          · exact hall c hc hid
          · rw [List.mem_singleton.mp hc] at hid
            simp [hid] at hne
        · rintro ⟨hget, hall⟩
          refine ⟨⟨hget, fun c hc => hall c (List.mem_append_left _ hc)⟩, ?_⟩
          by_contra hsame
          have hid : id = cur.id := by simpa using hsame
          exact hname (hall cur (List.mem_append_right _ (List.mem_singleton_self _)) hid.symm)
      refine runs_perform hI' trivial
        (h.of_fewer hdevices fun id row hrow => ((hdone id row).mp hrow).1) ⟨hdevices, ?_, hdone⟩
      intro ip
      simp only [Netbox.serve, Netbox.deleteInterface, RowTable.get_deleteWhere, hips]
      cases hget : nb.ips.get ip with
      | none => rfl
      | some row => simpa using hempty cur hmem hname ip row hget

end Deletions

/-! ## The settled device -/

section Settling

variable {server : NetboxServer} {start mid nb : Netbox} {device : Nat} {host : HostId}
  {observed : Inventory} {seats : List Seat} {placed : List Placed}

theorem mem_slots {i : Nat} {cidr : String} :
    (i, cidr) ∈ slots seats ↔ ∃ s ∈ seats, s.interface = i ∧ cidr ∈ cidrs s.iface := by
  simp only [slots, List.mem_flatMap, List.mem_map, Prod.mk.injEq]
  constructor
  · rintro ⟨s, hs, c, hc, hi, rfl⟩
    exact ⟨s, hs, hi, hc⟩
  · rintro ⟨s, hs, hi, hc⟩
    exact ⟨s, hs, cidr, hc, hi, rfl⟩

/-- Of the rows on the device exactly the placed ones are left when the others that
were read are gone. -/
theorem Mid.placed_iff (server : NetboxServer) (h : Mid start device seats placed mid)
    (hips : ∀ id, nb.ips.get id =
      if id ∈ ((start.readInterfaces server device).flatMap NbInterface.ips).map NbIp.id ∧
        id ∉ placed.map Placed.ip then none else mid.ips.get id)
    {i : Nat} {name : String} (hi : mid.interfaces.get i = some ⟨device, name⟩) (ip : Nat)
    (cidr : String) : nb.ips.get ip = some ⟨i, cidr⟩ ↔ ⟨ip, i, cidr⟩ ∈ placed := by
  rw [hips]
  constructor
  · intro hget
    split_ifs at hget with hdeleted
    by_cases hkept : ip ∈ placed.map Placed.ip
    · obtain ⟨p, hp, rfl⟩ := List.mem_map.mp hkept
      rw [h.inPlace p hp] at hget
      cases hget
      exact hp
    · -- a row that was not placed was read, since its interface was there
      have hold : start.ips.get ip = some ⟨i, cidr⟩ := (h.unmoved ip hkept).symm.trans hget
      rcases h.made i name hi with hstart | ⟨-, hnext, -⟩
      · obtain ⟨iface, hiface, rfl, -⟩ := exists_mem_readInterfaces server hstart
        have hread : (⟨ip, cidr⟩ : NbIp) ∈ iface.ips := ((mem_readInterfaces hiface).2 _).mpr hold
        exact absurd ⟨List.mem_map.mpr ⟨_, List.mem_flatMap.mpr ⟨iface, hiface, hread⟩, rfl⟩, hkept⟩
          hdeleted
      · have hlt := start.assigned ip _ hold
        exact absurd hlt (not_lt.mpr hnext)
  · intro hmem
    rw [if_neg fun hdeleted => hdeleted.2 (List.mem_map_of_mem hmem)]
    exact h.inPlace _ hmem

/-- Of the interfaces of the device exactly the seats are left when the ones that are
not reported are gone. -/
theorem Mid.seat_iff (h : Mid start device seats placed mid) (hstart : DistinctNames device start)
    (hseats : seats.map Seat.iface = observed.interfaces)
    (hnames : (observed.interfaces.map fun iface => iface.name.text).Nodup)
    (hinterfaces : ∀ id row, nb.interfaces.get id = some row ↔ mid.interfaces.get id = some row ∧
      ∀ cur ∈ start.readInterfaces server device, cur.id = id →
        cur.name ∈ observed.interfaces.map fun iface => iface.name.text)
    (id : Nat) (name : String) :
    nb.interfaces.get id = some ⟨device, name⟩ ↔
      ∃ s ∈ seats, s.interface = id ∧ s.iface.name.text = name := by
  have hseatNames : seats.map (fun s => s.iface.name.text) =
      observed.interfaces.map fun iface => iface.name.text := by
    rw [← hseats, List.map_map]
    rfl
  have hdistinct := h.distinctNames hstart (hseatNames ▸ hnames)
  rw [hinterfaces]
  constructor
  · rintro ⟨hget, hreported⟩
    rcases h.made id name hget with hold | ⟨hseat, -, -⟩
    · obtain ⟨cur, hcur, hid, rfl⟩ := exists_mem_readInterfaces server hold
      have hmem := hreported cur hcur hid
      rw [← hseatNames] at hmem
      obtain ⟨s, hs, hname⟩ := List.mem_map.mp hmem
      have hseated := h.seated s hs
      rw [hname] at hseated
      exact ⟨s, hs, hdistinct _ _ _ hseated hget, hname⟩
    · exact hseat
  · rintro ⟨s, hs, rfl, rfl⟩
    refine ⟨h.seated s hs, fun cur hcur hid => ?_⟩
    have hold := h.interfaces _ _ (mem_readInterfaces hcur).1
    rw [hid, h.seated s hs] at hold
    have hname : s.iface.name.text = cur.name := by simpa using hold
    rw [← hname, ← hseatNames]
    exact List.mem_map.mpr ⟨s, hs, rfl⟩

/-- The first placed row of a kind is the row of the first observed address of that
kind. -/
theorem primarySet_of_placed (hseats : seats.map Seat.iface = observed.interfaces)
    (hslots : placed.map (fun p => (p.interface, p.cidr)) = slots seats)
    (hseated : ∀ s ∈ seats, nb.interfaces.get s.interface = some ⟨device, s.iface.name.text⟩)
    (hplaced : ∀ p ∈ placed, nb.ips.get p.ip = some ⟨p.interface, p.cidr⟩) (q : String → Bool) :
    PrimarySet nb device ((observedAddresses observed).find? fun a => q a.2)
      ((placed.find? fun p => q p.cidr).map Placed.ip) := by
  -- both lists are images of the seats with their addresses
  let full : List (Seat × String) := seats.flatMap fun s => (cidrs s.iface).map fun c => (s, c)
  have hobserved : observedAddresses observed = full.map fun x => (x.1.iface.name.text, x.2) := by
    simp [observedAddresses, full, ← hseats, List.map_flatMap, List.flatMap_map, Function.comp_def]
  have hfull : placed.map (fun p => (p.interface, p.cidr)) =
      full.map fun x => (x.1.interface, x.2) := by
    rw [hslots]
    simp [slots, full, List.map_flatMap, Function.comp_def]
  have hfind := congrArg (List.find? fun a => q a.2) hfull
  rw [List.find?_map, List.find?_map] at hfind
  rw [hobserved, List.find?_map]
  change (placed.find? fun p => q p.cidr).map _ = (full.find? fun x => q x.2).map _ at hfind
  change PrimarySet nb device ((full.find? fun x => q x.2).map _) _
  cases hfirst : full.find? fun x => q x.2 with
  | none =>
      rw [hfirst] at hfind
      simp only [Option.map_none, Option.map_eq_none_iff] at hfind
      simp [PrimarySet, hfind]
  | some x =>
      rw [hfirst] at hfind
      obtain ⟨p, hp, hpx⟩ := Option.map_eq_some_iff.mp hfind
      obtain ⟨hinterface, hcidr⟩ := Prod.mk.inj hpx
      have hmem : x ∈ full := List.mem_of_find?_eq_some hfirst
      obtain ⟨s, hs, hx⟩ := List.mem_flatMap.mp hmem
      obtain ⟨c, -, rfl⟩ := List.mem_map.mp hx
      have hget := hplaced p (List.mem_of_find?_eq_some hp)
      rw [hinterface, hcidr] at hget
      exact ⟨p.ip, s.interface, by simp [hp], hget, hseated s hs⟩

theorem nodup_cidrs (h : (observed.interfaces.flatMap cidrs).Nodup)
    (hslots : placed.map (fun p => (p.interface, p.cidr)) = slots seats)
    (hseats : seats.map Seat.iface = observed.interfaces) : (placed.map Placed.cidr).Nodup := by
  have hplaced : placed.map Placed.cidr = (seats.map Seat.iface).flatMap cidrs := by
    have hsnd := congrArg (List.map Prod.snd) hslots
    simpa [slots, List.map_flatMap, List.flatMap_map, Function.comp_def] using hsnd
  rwa [hplaced, hseats]

/-- The seats are the interfaces of the device and the placed rows are the rows on
them: the device is as observed. -/
theorem settled_of_placed (row : DeviceRow) (hseats : seats.map Seat.iface = observed.interfaces)
    (hslots : placed.map (fun p => (p.interface, p.cidr)) = slots seats)
    (hnames : (observed.interfaces.map fun iface => iface.name.text).Nodup)
    (haddresses : (observed.interfaces.flatMap cidrs).Nodup)
    (hseat : ∀ id name, nb.interfaces.get id = some ⟨device, name⟩ ↔
      ∃ s ∈ seats, s.interface = id ∧ s.iface.name.text = name)
    (hplaced : ∀ s ∈ seats, ∀ ip cidr,
      nb.ips.get ip = some ⟨s.interface, cidr⟩ ↔ ⟨ip, s.interface, cidr⟩ ∈ placed)
    (hrow : nb.devices.get device = some { row with
      primaryIp4 := (Kept.of placed).primaryIp4, primaryIp6 := (Kept.of placed).primaryIp6,
      osaHostId := some host.toStr.text }) :
    Settled device host observed nb := by
  have hseatNames : seats.map (fun s => s.iface.name.text) =
      observed.interfaces.map fun iface => iface.name.text := by
    rw [← hseats, List.map_map]
    rfl
  have hseated : ∀ s ∈ seats, nb.interfaces.get s.interface = some ⟨device, s.iface.name.text⟩ :=
    fun s hs => (hseat _ _).mpr ⟨s, hs, rfl, rfl⟩
  have honSeat : ∀ p ∈ placed, nb.ips.get p.ip = some ⟨p.interface, p.cidr⟩ := by
    intro p hp
    have hslot : (p.interface, p.cidr) ∈ slots seats :=
      hslots ▸ List.mem_map.mpr ⟨p, hp, rfl⟩
    obtain ⟨s, hs, hinterface, -⟩ := mem_slots.mp hslot
    have hget := (hplaced s hs p.ip p.cidr).mpr (by rwa [hinterface])
    rwa [hinterface] at hget
  have hcidrs := nodup_cidrs haddresses hslots hseats
  -- seats with one name or one interface are one seat
  have hseatInj : ∀ s ∈ seats, ∀ s' ∈ seats, s.iface.name.text = s'.iface.name.text → s = s' :=
    fun s hs s' hs' heq => List.inj_on_of_nodup_map (hseatNames ▸ hnames) hs hs' heq
  refine ⟨?_, ?_, ?_, ?_, ?_⟩
  · refine (List.perm_ext_iff_of_nodup (RowTable.nodup_column ?_) hnames).mpr ?_
    · rintro id id' ⟨d, name⟩ ⟨d', name'⟩ hid hid' hd hd' hname
      obtain ⟨rfl, rfl⟩ : d = device ∧ d' = device := ⟨by simpa using hd, by simpa using hd'⟩
      obtain rfl : name = name' := hname
      obtain ⟨s, hs, rfl, hsname⟩ := (hseat _ _).mp hid
      obtain ⟨s', hs', rfl, hsname'⟩ := (hseat _ _).mp hid'
      rw [hseatInj s hs s' hs' (hsname.trans hsname'.symm)]
    · intro name
      rw [RowTable.mem_column, ← hseatNames, List.mem_map]
      constructor
      · rintro ⟨id, ⟨d, name'⟩, hid, hd, rfl⟩
        obtain rfl : d = device := by simpa using hd
        obtain ⟨s, hs, -, hname⟩ := (hseat _ _).mp hid
        exact ⟨s, hs, hname⟩
      · rintro ⟨s, hs, rfl⟩
        exact ⟨s.interface, _, hseated s hs, by simp, rfl⟩
  · intro iface hiface i hi
    obtain ⟨s, hs, rfl, hname⟩ := (hseat _ _).mp hi
    have hsame : s.iface = iface := by
      have hmem : s.iface ∈ observed.interfaces := hseats ▸ List.mem_map_of_mem hs
      exact List.inj_on_of_nodup_map hnames hmem hiface hname
    subst hsame
    have hnodup : (cidrs s.iface).Nodup := by
      refine List.Nodup.sublist ?_ haddresses
      exact List.sublist_flatten_of_mem (List.mem_map_of_mem hiface)
    refine (List.perm_ext_iff_of_nodup (RowTable.nodup_column ?_) hnodup).mpr ?_
    · rintro ip ip' ⟨j, cidr⟩ ⟨j', cidr'⟩ hip hip' hj hj' hcidr
      obtain ⟨rfl, rfl⟩ : j = s.interface ∧ j' = s.interface :=
        ⟨by simpa using hj, by simpa using hj'⟩
      obtain rfl : cidr = cidr' := hcidr
      have hp := (hplaced s hs ip cidr).mp hip
      have hp' := (hplaced s hs ip' cidr).mp hip'
      have heq := List.inj_on_of_nodup_map hcidrs hp hp' rfl
      exact congrArg Placed.ip heq
    · intro cidr
      rw [RowTable.mem_column]
      constructor
      · rintro ⟨ip, ⟨j, cidr'⟩, hip, hj, rfl⟩
        obtain rfl : j = s.interface := by simpa using hj
        have hp := (hplaced s hs ip cidr').mp hip
        have hslot : (s.interface, cidr') ∈ slots seats := hslots ▸ List.mem_map.mpr ⟨_, hp, rfl⟩
        obtain ⟨s', hs', hinterface, hmem⟩ := mem_slots.mp hslot
        have hrows := hseated s' hs'
        rw [hinterface, hseated s hs] at hrows
        have hname' : s.iface.name.text = s'.iface.name.text := by simpa using hrows
        rwa [hseatInj s hs s' hs' hname']
      · intro hmem
        have hslot : (s.interface, cidr) ∈ slots seats := mem_slots.mpr ⟨s, hs, rfl, hmem⟩
        rw [← hslots] at hslot
        obtain ⟨p, hp, heq⟩ := List.mem_map.mp hslot
        obtain ⟨hinterface, hcidr⟩ := Prod.mk.inj heq
        have hget := honSeat p hp
        rw [hinterface, hcidr] at hget
        exact ⟨p.ip, _, hget, by simp, rfl⟩
  · simp [Stamped, hrow]
  · intro row' hrow'
    rw [hrow] at hrow'
    cases hrow'
    rw [Kept.of_primary Kept.primaryIp4 isIpv4Cidr rfl fun _ _ _ => rfl]
    exact primarySet_of_placed hseats hslots hseated honSeat isIpv4Cidr
  · intro row' hrow'
    rw [hrow] at hrow'
    cases hrow'
    rw [Kept.of_primary Kept.primaryIp6 (fun cidr => !isIpv4Cidr cidr) rfl fun k cidr ip => by
      cases h : isIpv4Cidr cidr <;> simp [Kept.keep, h]]
    exact primarySet_of_placed hseats hslots hseated honSeat (fun cidr => !isIpv4Cidr cidr)

/-- A reconcile that gets all its answers leaves the device as observed; wherever it
stops, the next attempt can start. -/
theorem reconcile_settles (server : NetboxServer) (host : HostId)
    (hstart : Reconcilable device start)
    (hnames : (observed.interfaces.map fun iface => iface.name.text).Nodup)
    (haddresses : (observed.interfaces.flatMap cidrs).Nodup) :
    Runs (Netbox.serve server) (Reconcilable device) (fun _ _ => True)
      (reconcile device host observed) (fun _ => Settled device host observed) start := by
  refine Runs.bind
    (Q := fun current nb => current = start.readInterfaces server device ∧ nb = start)
    (runs_perform hstart trivial hstart ⟨rfl, rfl⟩) ?_
  rintro current nb₀ - ⟨rfl, rfl⟩
  refine (placeAll_mid hstart hnames haddresses).bind ?_
  rintro k mid hmidI ⟨seats, placed, hseats, rfl, hmid, hslots⟩
  -- the primary addresses and the stamp are set before anything is deleted
  have hfinalI : Reconcilable device (mid.finalizeDevice device (Kept.of placed).primaryIp4
      (Kept.of placed).primaryIp6 host.toStr.text) := by
    refine ⟨hmidI.names, ?_⟩
    simpa [Netbox.finalizeDevice, RowTable.get_update] using hmidI.exists_row
  refine Runs.bind (Q := fun _ nb => nb = mid.finalizeDevice device (Kept.of placed).primaryIp4
    (Kept.of placed).primaryIp6 host.toStr.text) (runs_perform hmidI trivial hfinalI rfl) ?_
  rintro - final - rfl
  refine (deleteIps_runs hfinalI _ _).bind ?_
  rintro - nb₃ hI₃ ⟨hdevices, hinterfaces, hips⟩
  rw [Kept.of_keptIpIds] at hips
  have hplaced : ∀ {i name}, mid.interfaces.get i = some ⟨device, name⟩ → ∀ ip cidr,
      nb₃.ips.get ip = some ⟨i, cidr⟩ ↔ ⟨ip, i, cidr⟩ ∈ placed :=
    fun hi ip cidr => hmid.placed_iff server hips hi ip cidr
  have hseatNames : ∀ s ∈ seats,
      s.iface.name.text ∈ observed.interfaces.map fun iface => iface.name.text := by
    intro s hs
    rw [← hseats, List.map_map]
    exact List.mem_map.mpr ⟨s, hs, rfl⟩
  have hempty : ∀ cur ∈ nb₀.readInterfaces server device,
      cur.name ∉ observed.interfaces.map (fun iface => iface.name.text) →
      ∀ ip row, nb₃.ips.get ip = some row → row.interface ≠ cur.id := by
    rintro cur hcur hname ip ⟨i, cidr⟩ hget rfl
    have hcurRow := hmid.interfaces _ _ (mem_readInterfaces hcur).1
    have hp := (hplaced hcurRow ip cidr).mp hget
    have hslot : (cur.id, cidr) ∈ slots seats := hslots ▸ List.mem_map.mpr ⟨_, hp, rfl⟩
    obtain ⟨s, hs, hinterface, -⟩ := mem_slots.mp hslot
    have hseated := hmid.seated s hs
    rw [hinterface, hcurRow] at hseated
    have hsame : cur.name = s.iface.name.text := by simpa using hseated
    exact hname (hsame ▸ hseatNames s hs)
  refine (deleteInterfaces_runs hI₃ _ _ hempty).post ?_
  rintro - nb - ⟨hdevices', hips', hinterfaces'⟩
  rw [hinterfaces] at hinterfaces'
  obtain ⟨row, hrow⟩ := Option.isSome_iff_exists.mp hmidI.exists_row
  refine settled_of_placed row hseats hslots hnames haddresses
    (hmid.seat_iff hstart.names hseats hnames hinterfaces') ?_ ?_
  · intro s hs ip cidr
    rw [hips']
    exact hplaced (hmid.seated s hs) ip cidr
  · rw [hdevices', hdevices]
    simp [Netbox.finalizeDevice, RowTable.get_update, hrow]

end Settling

/-! ## Convergence -/

/-- Attempts to reconcile one after the other, each up to wherever it stops. -/
def attempts (server : NetboxServer) (device : Nat) (host : HostId) (observed : Inventory)
    (nb : Netbox) (plans : List (List (Fate PortError))) : Netbox :=
  plans.foldl (fun nb fates => (reconcileOn server device host observed nb fates).2.state) nb

/-- No text of an address occurs twice in an inventory. -/
def UniqueAddresses (observed : Inventory) : Prop :=
  ((observed.interfaces.flatMap fun iface => iface.ipAddresses).filter
    fun ip => (IpText.parse ip.text).isSome).Nodup

section Convergence

variable {server : NetboxServer} {device : Nat} {host : HostId} {observed : Inventory} {nb : Netbox}

theorem toCidr_isSome (ip : String) : (toCidr ip).isSome = (IpText.parse ip).isSome := by
  unfold toCidr
  split <;> simp_all

/-- Addresses with different texts have different forms with their masks. -/
theorem UniqueAddresses.nodup_cidrs (h : UniqueAddresses observed) :
    (observed.interfaces.flatMap cidrs).Nodup := by
  have hforms : observed.interfaces.flatMap cidrs =
      ((observed.interfaces.flatMap fun iface => iface.ipAddresses).filter
        fun ip => (IpText.parse ip.text).isSome).filterMap fun ip => toCidr ip.text := by
    rw [List.filterMap_filter]
    have hskip : (fun ip : Str => if (IpText.parse ip.text).isSome = true then toCidr ip.text
        else none) = fun ip => toCidr ip.text := by
      funext ip
      split_ifs with hparse
      · rfl
      · rw [← toCidr_isSome] at hparse
        exact (Option.not_isSome_iff_eq_none.mp hparse).symm
    rw [hskip]
    induction observed.interfaces with
    | nil => rfl
    | cons iface rest ih => simp [List.filterMap_append, ih, cidrs]
  rw [hforms]
  refine List.Nodup.filterMap ?_ h
  intro ip ip' cidr hip hip'
  exact Str.ext_text (toCidr_injective hip hip')

/-- One attempt: the next can start from wherever it stops, and success settles the
device. -/
theorem reconcileOn_settles (server : NetboxServer) (host : HostId) (h : Reconcilable device nb)
    (hnames : (observed.interfaces.map fun iface => iface.name.text).Nodup)
    (haddresses : UniqueAddresses observed) (fates : List (Fate PortError)) :
    Reconcilable device (reconcileOn server device host observed nb fates).2.state ∧
    ((reconcileOn server device host observed nb fates).1 = .ok () →
      Settled device host observed (reconcileOn server device host observed nb fates).2.state) := by
  have hruns := reconcile_settles server host h hnames haddresses.nodup_cidrs
  obtain ⟨hinv, hpost, -⟩ := hruns.exec (w := ⟨nb, fates, []⟩)
  exact ⟨hinv, hpost ()⟩

theorem attempts_reconcilable (server : NetboxServer) (host : HostId) (h : Reconcilable device nb)
    (hnames : (observed.interfaces.map fun iface => iface.name.text).Nodup)
    (haddresses : UniqueAddresses observed) (plans : List (List (Fate PortError))) :
    Reconcilable device (attempts server device host observed nb plans) := by
  induction plans generalizing nb with
  | nil => exact h
  | cons fates plans ih =>
      exact ih (reconcileOn_settles server host h hnames haddresses fates).1

/-- From every device with different interface names, any number of attempts that stop
anywhere, followed by one that succeeds, leave the device exactly as observed. -/
theorem reconcile_converges (server : NetboxServer) (host : HostId)
    (hdevice : (nb.devices.get device).isSome = true) (hdistinct : DistinctNames device nb)
    (hnames : (observed.interfaces.map fun iface => iface.name.text).Nodup)
    (haddresses : UniqueAddresses observed) (plans : List (List (Fate PortError)))
    (fates : List (Fate PortError))
    (hok : (reconcileOn server device host observed
      (attempts server device host observed nb plans) fates).1 = .ok ()) :
    Settled device host observed (reconcileOn server device host observed
      (attempts server device host observed nb plans) fates).2.state := by
  have hlast := attempts_reconcilable server host ⟨hdistinct, hdevice⟩ hnames haddresses plans
  exact (reconcileOn_settles server host hlast hnames haddresses fates).2 hok

theorem distinctNames_of_nodup (h : (nb.interfaceNames device).Nodup) : DistinctNames device nb :=
  fun _ _ _ hid hid' => RowTable.eq_of_nodup_column h hid hid' (by simp) (by simp) rfl

end Convergence

/-- A first attempt moves the address and loses the answer to its next call; the
second attempt completes. -/
theorem reconcile_converges_resumed :
    Settled 1 sampleHost sampleObserved
      (reconcileOn sampleServer 1 sampleHost sampleObserved
        (attempts sampleServer 1 sampleHost sampleObserved sampleNetbox
          [[.answered, .answered, .lost (.backend "timed out")]]) []).2.state :=
  reconcile_converges sampleServer sampleHost (by decide +kernel)
    (distinctNames_of_nodup (by decide +kernel)) (by decide +kernel)
    (by unfold UniqueAddresses; decide +kernel) _ [] (by decide +kernel)

/-! ## Repeats -/

/-- A call that creates, moves or deletes an interface or an address. -/
def NetboxCall.isRowWrite : NetboxCall → Bool
  | .createInterface _ _ | .deleteInterface _ | .createIp _ _ | .moveIp _ _ | .deleteIp _ => true
  | _ => false

/-- No address is reported on two interfaces. -/
def NoSharedAddress (observed : Inventory) : Prop :=
  ∀ iface ∈ observed.interfaces, ∀ iface' ∈ observed.interfaces, ∀ ip ∈ iface.ipAddresses,
    ip ∈ iface'.ipAddresses → (IpText.parse ip.text).isSome = true → iface = iface'

/-- A program whose answered run writes no row. -/
abbrev Quiet {A : Type} (server : NetboxServer) (p : NetboxProg A) (Q : A → Netbox → Prop)
    (nb : Netbox) : Prop :=
  Runs (Netbox.serve server) (fun _ => True) (fun c _ => c.isRowWrite = false) p Q nb

section Repeats

variable {server : NetboxServer} {device : Nat} {host : HostId} {observed : Inventory}
  {nb nb' : Netbox} {iface : InventoryInterface} {cidr : String}

theorem mem_cidrs :
    cidr ∈ cidrs iface ↔ ∃ ip ∈ iface.ipAddresses, toCidr ip.text = some cidr := by
  simp [cidrs]

theorem NoSharedAddress.eq (h : NoSharedAddress observed) {iface' : InventoryInterface}
    (hiface : iface ∈ observed.interfaces) (hiface' : iface' ∈ observed.interfaces)
    (hcidr : cidr ∈ cidrs iface) (hcidr' : cidr ∈ cidrs iface') : iface = iface' := by
  obtain ⟨ip, hip, hform⟩ := mem_cidrs.mp hcidr
  obtain ⟨ip', hip', hform'⟩ := mem_cidrs.mp hcidr'
  have hsame : ip = ip' := Str.ext_text (toCidr_injective hform hform')
  subst hsame
  refine h iface hiface iface' hiface' ip hip hip' ?_
  rw [← toCidr_isSome, hform]
  rfl

/-- Lists without repetitions that share no address have no repetition together. -/
theorem NoSharedAddress.uniqueAddresses (h : NoSharedAddress observed)
    (hnames : (observed.interfaces.map fun iface => iface.name.text).Nodup)
    (hlists : ∀ iface ∈ observed.interfaces, iface.ipAddresses.Nodup) :
    UniqueAddresses observed := by
  unfold UniqueAddresses
  rw [List.filter_flatMap, List.nodup_flatMap]
  refine ⟨fun iface hiface => (hlists iface hiface).filter _, ?_⟩
  have hnodup : observed.interfaces.Nodup := List.Nodup.of_map _ hnames
  refine hnodup.pairwise_of_forall_ne ?_
  intro iface hiface iface' hiface' hne
  rw [Function.onFun, List.disjoint_left]
  intro ip hip hip'
  obtain ⟨hip, hparse⟩ := List.mem_filter.mp hip
  exact hne (h iface hiface iface' hiface' ip hip (List.mem_of_mem_filter hip') hparse)

/-- On a settled device every observed interface is found by its name. -/
theorem Settled.currentByName (h : Settled device host observed nb) (server : NetboxServer)
    (hiface : iface ∈ observed.interfaces) :
    ∃ cur, currentByName (nb.readInterfaces server device) iface.name.text = some cur ∧
      nb.interfaces.get cur.id = some ⟨device, iface.name.text⟩ := by
  have hmem : iface.name.text ∈ nb.interfaceNames device :=
    h.names.mem_iff.mpr (List.mem_map_of_mem hiface)
  obtain ⟨id, ⟨d, name⟩, hid, hd, rfl⟩ := RowTable.mem_column.mp hmem
  obtain rfl : d = device := by simpa using hd
  obtain ⟨i, hi, -, hname⟩ := exists_mem_readInterfaces server hid
  cases hfind : Coordinator.currentByName (nb.readInterfaces server d) iface.name.text with
  | none =>
      have hnone := List.find?_eq_none.mp hfind i (List.mem_reverse.mpr hi)
      simp [hname] at hnone
  | some cur =>
      obtain ⟨hcur, hcurName⟩ := mem_of_currentByName hfind
      refine ⟨cur, rfl, ?_⟩
      rw [← hcurName]
      exact (mem_readInterfaces hcur).1

/-- Every interface of a settled device is observed. -/
theorem Settled.observed_of_interface (h : Settled device host observed nb) {i : Nat}
    {name : String}
    (hi : nb.interfaces.get i = some ⟨device, name⟩) :
    ∃ iface ∈ observed.interfaces, iface.name.text = name := by
  have hmem : name ∈ nb.interfaceNames device :=
    RowTable.mem_column.mpr ⟨i, ⟨device, name⟩, hi, by simp, rfl⟩
  exact List.mem_map.mp (h.names.mem_iff.mp hmem)

/-- On a settled device without shared addresses every observed address is found on
its own interface. -/
theorem Settled.existingIps (h : Settled device host observed nb) (server : NetboxServer)
    (hdistinct : DistinctNames device nb) (hshared : NoSharedAddress observed)
    (hiface : iface ∈ observed.interfaces) (hcidr : cidr ∈ cidrs iface) {i : Nat}
    (hi : nb.interfaces.get i = some ⟨device, iface.name.text⟩) :
    ∃ ip, existingIps (nb.readInterfaces server device) cidr = some (ip, i) ∧
      nb.ips.get ip = some ⟨i, cidr⟩ := by
  have hmem : cidr ∈ nb.addressesOn i := (h.rows iface hiface i hi).mem_iff.mpr hcidr
  obtain ⟨ip, ⟨j, a⟩, hip, hj, rfl⟩ := RowTable.mem_column.mp hmem
  obtain rfl : j = i := by simpa using hj
  obtain ⟨iface₀, hiface₀, rfl, -⟩ := exists_mem_readInterfaces server hi
  have hread := ((mem_readInterfaces hiface₀).2 ⟨ip, a⟩).mpr hip
  cases hfind : Coordinator.existingIps (nb.readInterfaces server device) a with
  | none =>
      rw [Coordinator.existingIps, List.lookup_eq_none_iff] at hfind
      have hnone := hfind (a, ip, iface₀.id)
        (List.mem_flatMap.mpr ⟨iface₀, hiface₀, List.mem_map.mpr ⟨_, hread, rfl⟩⟩)
      simp at hnone
  | some found =>
      obtain ⟨ip', j'⟩ := found
      obtain ⟨iface₁, hiface₁, rfl, hread₁⟩ := mem_of_existingIps hfind
      have hrow₁ := ((mem_readInterfaces hiface₁).2 _).mp hread₁
      have hi₁ := (mem_readInterfaces hiface₁).1
      obtain ⟨iface', hiface', hname⟩ := h.observed_of_interface hi₁
      rw [← hname] at hi₁
      have hcidr' : a ∈ cidrs iface' := by
        refine (h.rows iface' hiface' _ hi₁).mem_iff.mp ?_
        exact RowTable.mem_column.mpr ⟨ip', _, hrow₁, by simp, rfl⟩
      obtain rfl := hshared.eq hiface hiface' hcidr hcidr'
      have hsame := hdistinct _ _ _ hi₁ hi
      exact ⟨ip', by rw [hsame], hsame ▸ hrow₁⟩

/-- What a repeat keeps of one observed interface: the row of each of its addresses. -/
def KeepsRows (server : NetboxServer) (device : Nat) (nb : Netbox) (iface : InventoryInterface)
    (k : Kept) : Prop :=
  ∀ cidr ∈ cidrs iface, ∀ i, nb.interfaces.get i = some ⟨device, iface.name.text⟩ →
    ∃ ip ∈ k.keptIpIds, existingIps (nb.readInterfaces server device) cidr = some (ip, i)

/-- One interface of a repeat: nothing is written and all its rows are kept. -/
theorem placeInterface_quiet (h : Settled device host observed nb)
    (hdistinct : DistinctNames device nb) (hshared : NoSharedAddress observed)
    (hiface : iface ∈ observed.interfaces) (k : Kept) :
    Quiet server (placeInterface device (nb.readInterfaces server device) k iface)
      (fun k' _ => k.keptIpIds ⊆ k'.keptIpIds ∧ KeepsRows server device nb iface k') nb' := by
  obtain ⟨cur, hcur, hget⟩ := h.currentByName server hiface
  have hensure : ensureInterface device (nb.readInterfaces server device) iface.name.text =
      pure cur.id := by
    simp only [ensureInterface, hcur]
  unfold placeInterface
  rw [hensure]
  refine Runs.bind (runs_pure (Q := fun i _ => i = cur.id) trivial rfl) ?_
  rintro i nb'' - rfl
  refine (Runs.foldlM (fun front k' _ => k.keptIpIds ⊆ k'.keptIpIds ∧ ∀ cidr ∈ front,
    ∃ ip ∈ k'.keptIpIds, existingIps (nb.readInterfaces server device) cidr = some (ip, cur.id))
    (fun _ _ _ _ => trivial) ?_ ⟨List.Subset.refl _, by simp⟩).post ?_
  · rintro front cidr back k' nb'' hsplit ⟨hsub, hfront⟩
    have hcidr : cidr ∈ cidrs iface := hsplit ▸ List.mem_append_right _ List.mem_cons_self
    obtain ⟨ip, hfind, -⟩ := h.existingIps server hdistinct hshared hiface hcidr hget
    simp only [placeIp, hfind, ne_eq, not_true_eq_false, if_false]
    have hmore : k'.keptIpIds ⊆ (k'.keep cidr ip).keptIpIds := List.subset_append_left _ _
    refine runs_pure trivial ⟨List.Subset.trans hsub hmore, fun cidr' hcidr' => ?_⟩
    rcases List.mem_append.mp hcidr' with hcidr' | hcidr'
    · obtain ⟨ip', hip', hfind'⟩ := hfront cidr' hcidr'
      exact ⟨ip', hmore hip', hfind'⟩
    · rw [List.mem_singleton.mp hcidr']
      exact ⟨ip, List.mem_append_right _ (List.mem_singleton_self _), hfind⟩
  · rintro k' nb'' - ⟨hsub, hall⟩
    refine ⟨hsub, fun cidr hcidr i hi => ?_⟩
    rw [hdistinct i cur.id _ hi hget]
    exact hall cidr hcidr

/-- A reconcile of a settled device without shared addresses writes no row. -/
theorem reconcile_quiet (server : NetboxServer) (h : Settled device host observed nb)
    (hdistinct : DistinctNames device nb)
    (haddresses : (observed.interfaces.flatMap cidrs).Nodup) (hshared : NoSharedAddress observed) :
    Quiet server (reconcile device host observed) (fun _ _ => True) nb := by
  refine Runs.bind (Q := fun current _ => current = nb.readInterfaces server device)
    (runs_perform trivial rfl trivial rfl) ?_
  rintro current nb₀ - rfl
  refine Runs.bind (Runs.foldlM
    (fun front k _ => ∀ iface ∈ front, KeepsRows server device nb iface k)
    (fun _ _ _ _ => trivial) ?_ (by simp)) ?_
  · rintro front iface back k nb₁ hsplit hfront
    have hiface : iface ∈ observed.interfaces :=
      hsplit ▸ List.mem_append_right _ List.mem_cons_self
    refine (placeInterface_quiet h hdistinct hshared hiface k).post ?_
    rintro k' nb₂ - ⟨hsub, hnew⟩ iface' hiface'
    rcases List.mem_append.mp hiface' with hiface' | hiface'
    · intro cidr hcidr i hi
      obtain ⟨ip, hip, hfind⟩ := hfront iface' hiface' cidr hcidr i hi
      exact ⟨ip, hsub hip, hfind⟩
    · rw [List.mem_singleton.mp hiface']
      exact hnew
  rintro k nb₁ - hkeeps
  refine Runs.bind (Q := fun _ _ => True) (runs_perform trivial rfl trivial trivial)
    fun _ nb₂ _ _ => ?_
  refine Runs.bind (Runs.forM (fun _ _ => True) (fun _ _ _ => trivial) ?_ trivial)
    fun _ nb₃ _ _ => ?_
  · intro front ip back nb₄ hsplit _
    have hmem : ip ∈ (nb.readInterfaces server device).flatMap NbInterface.ips :=
      hsplit ▸ List.mem_append_right _ List.mem_cons_self
    obtain ⟨cur, hcur, hip⟩ := List.mem_flatMap.mp hmem
    obtain ⟨hi, hrows⟩ := mem_readInterfaces hcur
    have hrow := (hrows ip).mp hip
    obtain ⟨iface, hiface, hname⟩ := h.observed_of_interface hi
    rw [← hname] at hi
    have hperm := h.rows iface hiface cur.id hi
    have hcidr : ip.address ∈ cidrs iface :=
      hperm.mem_iff.mp (RowTable.mem_column.mpr ⟨ip.id, _, hrow, by simp, rfl⟩)
    obtain ⟨ip', hkept, hfind⟩ := hkeeps iface hiface ip.address hcidr cur.id hi
    obtain ⟨ip'', hfind', hrow'⟩ := h.existingIps server hdistinct hshared hiface hcidr hi
    have hnodup : (nb.addressesOn cur.id).Nodup := by
      refine hperm.nodup_iff.mpr (List.Nodup.sublist ?_ haddresses)
      exact List.sublist_flatten_of_mem (List.mem_map_of_mem hiface)
    -- the interface has one row for the address, which is the one that is kept
    have hsame : ip' = ip.id := by
      rw [hfind] at hfind'
      cases hfind'
      exact RowTable.eq_of_nodup_column hnodup hrow' hrow (by simp) (by simp) rfl
    rw [if_neg (not_not.mpr (hsame ▸ hkept))]
    exact runs_pure trivial trivial
  · refine (Runs.forM (fun _ _ => True) (fun _ _ _ => trivial) ?_ trivial)
    intro front cur back nb₄ hsplit _
    have hcur : cur ∈ nb.readInterfaces server device :=
      hsplit ▸ List.mem_append_right _ List.mem_cons_self
    obtain ⟨iface, hiface, hname⟩ := h.observed_of_interface (mem_readInterfaces hcur).1
    rw [if_neg (not_not.mpr (hname ▸ List.mem_map_of_mem hiface))]
    exact runs_pure trivial trivial

/-- A reconcile that writes no row found every observed address on the interface that
reports it. -/
theorem found_of_quiet (h : Quiet server (reconcile device host observed) (fun _ _ => True) nb)
    (hiface : iface ∈ observed.interfaces) (hcidr : cidr ∈ cidrs iface) :
    ∃ cur ip, cur ∈ nb.readInterfaces server device ∧ cur.name = iface.name.text ∧
      existingIps (nb.readInterfaces server device) cidr = some (ip, cur.id) := by
  obtain ⟨-, -, -, h⟩ := runs_bind.mp h
  obtain ⟨k, nb₁, hturn⟩ := (runs_bind.mp h).foldlM_each iface hiface
  unfold placeInterface at hturn
  rw [runs_bind] at hturn
  change Runs _ _ _ (ensureInterface device (nb.readInterfaces server device) _) _ _ at hturn
  unfold ensureInterface at hturn
  split at hturn
  · rename_i cur hcur
    obtain ⟨hmem, hname⟩ := mem_of_currentByName hcur
    obtain ⟨k', nb₂, hplace⟩ := hturn.2.foldlM_each cidr hcidr
    change Runs _ _ _ (placeIp (nb.readInterfaces server device) _ _ _) _ _ at hplace
    unfold placeIp at hplace
    split at hplace
    · rename_i ip i hfind
      split_ifs at hplace with hmove
      · exact absurd hplace.2.1 (by simp [NetboxCall.isRowWrite])
      · exact ⟨cur, ip, hmem, hname, by rw [hfind, not_not.mp hmove]⟩
    · exact absurd hplace.2.1 (by simp [NetboxCall.isRowWrite])
  · exact absurd hturn.2.1 (by simp [NetboxCall.isRowWrite])

/-- After a successful reconcile a second one of the same inventory creates, moves and
deletes nothing, exactly if no address is reported on two interfaces. -/
theorem repeat_reconcile_iff (server : NetboxServer) (host : HostId)
    (hdevice : (nb.devices.get device).isSome = true) (hdistinct : DistinctNames device nb)
    (hnames : (observed.interfaces.map fun iface => iface.name.text).Nodup)
    (hlists : ∀ iface ∈ observed.interfaces, iface.ipAddresses.Nodup)
    (fates : List (Fate PortError))
    (hok : (reconcileOn server device host observed nb fates).1 = .ok ()) :
    (∀ fates', ∀ e ∈ (reconcileOn server device host observed
        (reconcileOn server device host observed nb fates).2.state fates').2.calls,
        e.1.isRowWrite = false) ↔
      NoSharedAddress observed := by
  generalize hfirst : (reconcileOn server device host observed nb fates).2.state = after
  constructor
  · intro hquiet iface hiface iface' hiface' ip hip hip' hparse
    obtain ⟨cidr, hform⟩ : ∃ cidr, toCidr ip.text = some cidr := by
      rwa [← Option.isSome_iff_exists, toCidr_isSome]
    obtain ⟨u, hanswered⟩ : ∃ u, (reconcileOn server device host observed after []).1 = .ok u :=
      exec_ok_of_faults_eq_nil rfl
    have hruns : Quiet server (reconcile device host observed) (fun _ _ => True) after :=
      runs_of_exec hanswered (List.nil_append _).symm (hquiet [])
    obtain ⟨cur, ip₁, hcur, hname, hfind⟩ :=
      found_of_quiet hruns hiface (mem_cidrs.mpr ⟨ip, hip, hform⟩)
    obtain ⟨cur', ip₂, hcur', hname', hfind'⟩ :=
      found_of_quiet hruns hiface' (mem_cidrs.mpr ⟨ip, hip', hform⟩)
    -- one row cannot be on two interfaces
    have hid : cur.id = cur'.id := by
      rw [hfind] at hfind'
      simpa using congrArg (Option.map Prod.snd) hfind'
    have hrow := (mem_readInterfaces hcur).1
    rw [hid, (mem_readInterfaces hcur').1] at hrow
    have hsame : cur'.name = cur.name := by simpa using hrow
    exact List.inj_on_of_nodup_map hnames hiface hiface'
      (hname.symm.trans (hsame.symm.trans hname'))
  · intro hshared fates'
    have hunique := hshared.uniqueAddresses hnames hlists
    obtain ⟨hstart, hsettled⟩ := reconcileOn_settles server host ⟨hdistinct, hdevice⟩ hnames
      hunique fates
    rw [hfirst] at hstart hsettled
    have hquiet := reconcile_quiet server (hsettled hok) hstart.names
      hunique.nodup_cidrs hshared
    obtain ⟨-, -, made, hcalls, hmade⟩ := hquiet.exec (w := (⟨after, fates', []⟩ : NetboxWorld))
    intro e he
    unfold reconcileOn at he
    rw [hcalls] at he
    exact hmade e he

end Repeats

/-- A repeat on the sample device writes no row, whatever becomes of its calls. -/
theorem repeat_reconcile_sample :
    NoSharedAddress sampleObserved ∧
      ∀ fates', ∀ e ∈ (reconcileOn sampleServer 1 sampleHost sampleObserved
        (reconcileOn sampleServer 1 sampleHost sampleObserved sampleNetbox []).2.state
        fates').2.calls, e.1.isRowWrite = false := by
  have hshared : NoSharedAddress sampleObserved := by
    unfold NoSharedAddress
    decide +kernel
  refine ⟨hshared, ?_⟩
  exact (repeat_reconcile_iff sampleServer sampleHost (by decide +kernel)
    (distinctNames_of_nodup (by decide +kernel)) (by decide +kernel) (by decide +kernel) []
    (by decide +kernel)).mpr hshared

/-- Two interfaces with one link-local address, as the agent reports them. -/
def sampleLinkLocal : Inventory :=
  sampleInventory (Str.lit "S2")
    [(Str.lit "eth0", [Str.lit "fe80::1"]), (Str.lit "eth1", [Str.lit "fe80::1"])]

/-- The first reconcile gives each interface a row; the second finds one row for both,
moves it from the first interface to the second and deletes the other. -/
theorem shared_address_moves :
    (reconcileOn sampleServer 2 sampleHost sampleLinkLocal
      (reconcileOn sampleServer 2 sampleHost sampleLinkLocal sampleNetbox []).2.state
      []).2.calls.map Prod.fst =
    [.readInterfaces 2, .moveIp 3 4, .finalizeDevice 2 none (some 3) sampleHost.toStr.text,
      .deleteIp 4] := by
  decide +kernel

end Coordinator
end OpenSsmAgent
