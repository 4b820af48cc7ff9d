import OpenSsmAgent.Coordinator.Service
import OpenSsmAgent.Lib.IpText
import OpenSsmAgent.Lib.RemoteCalls
import OpenSsmAgent.Lib.RowTable

/-!
# The inventory sink

The NetBox adapter of {lit}`osa-coordinator/src/netbox.rs`: the reconcile of an
observed inventory with the device that matches its serial, the retries around it
and the cache of synchronised snapshots.

NetBox is the other side of the seam {lit}`NetboxDevices`: tables of devices,
interfaces and addresses, in which addresses are verbatim texts, rows get fresh
numbers, and deleting an interface deletes the addresses still on it.  The order in
which it lists rows and the serials its filter takes for equal are its own.

Main results:

- Theorem {lit}`toCidr_injective`: an address is recognised by its text with the mask.
- Theorem {lit}`mem_readInterfaces`: what a read of a device lists.
-/

open Framing RemoteCalls

namespace OpenSsmAgent
namespace Coordinator

open Domain Proto Wire

/-! ## Addresses -/

/-- {lit}`to_cidr`. -/
def toCidr (ip : String) : Option String :=
  match IpText.parse ip with
  | some (.v4 _) => some (ip ++ "/32")
  | some (.v6 _) => some (ip ++ "/128")
  | none => none

/-- {lit}`is_ipv4_cidr`. -/
def isIpv4Cidr (cidr : String) : Bool :=
  (IpText.parse (String.ofList (cidr.toList.takeWhile (· ≠ '/')))).any IpText.IpAddr.isIpv4

/-- The text of an address comes before its mask. -/
theorem takeWhile_toCidr {ip cidr : String} (h : toCidr ip = some cidr) :
    String.ofList (cidr.toList.takeWhile (· ≠ '/')) = ip := by
  have htext : ∀ addr mask, IpText.parse ip = some addr → mask.head? = some '/' →
      String.ofList ((ip.toList ++ mask).takeWhile (· ≠ '/')) = ip := by
    intro addr mask hparse hmask
    have hslash : ∀ c ∈ ip.toList, decide (c ≠ '/') = true := by
      intro c hc
      have hnot : '/' ∉ ip.toList := IpText.notMem_of_parse hparse (by decide)
      simpa using fun heq : c = '/' => hnot (heq ▸ hc)
    have hrest : mask.takeWhile (· ≠ '/') = [] := by
      cases mask with
      | nil => rfl
      | cons c mask =>
          cases hmask
          rfl
    rw [List.takeWhile_append_of_pos hslash, hrest, List.append_nil, String.ofList_toList]
  unfold toCidr at h
  split at h
  · rename_i octets hparse
    cases h
    simpa using htext _ "/32".toList hparse rfl
  · rename_i groups hparse
    cases h
    simpa using htext _ "/128".toList hparse rfl
  · cases h

/-- Different texts of addresses stay different with their masks. -/
theorem toCidr_injective {ip ip' cidr : String} (h : toCidr ip = some cidr)
    (h' : toCidr ip' = some cidr) : ip = ip' :=
  (takeWhile_toCidr h).symm.trans (takeWhile_toCidr h')

example : toCidr "192.0.2.5" = some "192.0.2.5/32" := by
  decide +kernel

/-! ## NetBox -/

/-- A device, as far as the sink reads and writes it. -/
structure DeviceRow where
  serial : Option String
  osaHostId : Option String
  primaryIp4 : Option Nat
  primaryIp6 : Option Nat
deriving DecidableEq

/-- An interface of a device. -/
structure InterfaceRow where
  device : Nat
  name : String
deriving DecidableEq

/-- An address assigned to an interface. -/
structure IpRow where
  interface : Nat
  address : String
deriving DecidableEq

/-- The tables of a NetBox.  No address refers to an interface yet to come. -/
structure Netbox where
  devices : RowTable DeviceRow
  interfaces : RowTable InterfaceRow
  ips : RowTable IpRow
  assigned : ∀ id row, ips.get id = some row → row.interface < interfaces.next
deriving DecidableEq

/-- What NetBox decides by itself: the serials its filter takes for equal, and the
orders in which it lists rows. -/
structure NetboxServer where
  serialFilter : String → String → Bool
  interfaceOrder : List (Nat × InterfaceRow) → List (Nat × InterfaceRow)
  interfaceOrder_perm : ∀ rows, (interfaceOrder rows).Perm rows
  ipOrder : List (Nat × IpRow) → List (Nat × IpRow)
  ipOrder_perm : ∀ rows, (ipOrder rows).Perm rows

/-- {lit}`DeviceRef`. -/
structure DeviceRef where
  id : Nat
  hostId : Option String
deriving DecidableEq

/-- {lit}`SerialMatch`. -/
inductive SerialMatch where
  | none
  | one (device : DeviceRef)
  | many (count : Nat)
deriving DecidableEq

/-- {lit}`NbIp`. -/
structure NbIp where
  id : Nat
  address : String
deriving DecidableEq

/-- {lit}`NbInterface`. -/
structure NbInterface where
  id : Nat
  name : String
  ips : List NbIp
deriving DecidableEq

/-- {lit}`eq_ignore_ascii_case`. -/
def eqIgnoreAsciiCase (a b : String) : Bool :=
  a.toList.map Char.toLower = b.toList.map Char.toLower

namespace Netbox

variable (server : NetboxServer) (nb : Netbox)

/-- {lit}`match_by_serial`: the number of devices the filter lists decides; a single
device whose serial is not the one asked for is no match. -/
def matchBySerial (serial : String) : SerialMatch :=
  match nb.devices.rows.filter (fun row => row.2.serial.any (server.serialFilter serial)) with
  | [] => .none
  | [(id, device)] =>
      if device.serial.map (eqIgnoreAsciiCase · serial) = some true then
        .one ⟨id, device.osaHostId.filter (· ≠ "")⟩
      else .none
  | rows => .many rows.length

/-- {lit}`read_interfaces`. -/
def readInterfaces (device : Nat) : List NbInterface :=
  (server.interfaceOrder (nb.interfaces.rows.filter (fun row => row.2.device = device))).map
    fun row =>
      ⟨row.1, row.2.name,
        (server.ipOrder (nb.ips.rows.filter (fun ip => ip.2.interface = row.1))).map
          fun ip => ⟨ip.1, ip.2.address⟩⟩

/-- {lit}`create_interface`. -/
def createInterface (device : Nat) (name : String) : Nat × Netbox :=
  (nb.interfaces.next,
    { nb with
      interfaces := (nb.interfaces.insert ⟨device, name⟩).2
      assigned := fun id row h => Nat.lt_succ_of_lt (nb.assigned id row h) })

/-- {lit}`delete_interface`: the addresses still on it go with it. -/
def deleteInterface (interface : Nat) : Netbox where
  devices := nb.devices
  interfaces := nb.interfaces.deleteWhere (fun id _ => id = interface)
  ips := nb.ips.deleteWhere (fun _ row => row.interface = interface)
  assigned := by
    intro id row h
    rw [RowTable.get_deleteWhere] at h
    exact nb.assigned id row (Option.filter_eq_some_iff.mp h).1

/-- {lit}`create_ip`.  An interface that never existed is refused. -/
def createIp (interface : Nat) (address : String) : Nat × Netbox :=
  (nb.ips.next,
    if h : interface < nb.interfaces.next then
      { nb with
        ips := (nb.ips.insert ⟨interface, address⟩).2
        assigned := by
          intro id row hrow
          rw [RowTable.get_insert] at hrow
          split at hrow
          · cases hrow
            exact h
          · exact nb.assigned id row hrow }
    else nb)

/-- {lit}`move_ip`.  An interface that never existed is refused. -/
def moveIp (ip interface : Nat) : Netbox :=
  if h : interface < nb.interfaces.next then
    { nb with
      ips := nb.ips.update ip (fun row => { row with interface := interface })
      assigned := by
        intro id row hrow
        rw [RowTable.get_update] at hrow
        split at hrow
        · obtain ⟨old, -, rfl⟩ := Option.map_eq_some_iff.mp hrow
          exact h
        · exact nb.assigned id row hrow }
  else nb

/-- {lit}`delete_ip`. -/
def deleteIp (ip : Nat) : Netbox where
  devices := nb.devices
  interfaces := nb.interfaces
  ips := nb.ips.deleteWhere (fun id _ => id = ip)
  assigned := by
    intro id row h
    rw [RowTable.get_deleteWhere] at h
    exact nb.assigned id row (Option.filter_eq_some_iff.mp h).1

/-- {lit}`finalize_device`: the primary addresses and the stamp, nothing else. -/
def finalizeDevice (device : Nat) (primaryIp4 primaryIp6 : Option Nat) (hostId : String) : Netbox :=
  { nb with
    devices := nb.devices.update device (fun row =>
      { row with primaryIp4 := primaryIp4, primaryIp6 := primaryIp6, osaHostId := some hostId }) }

end Netbox

/-! ## The seam -/

/-- A call of {lit}`NetboxDevices`. -/
inductive NetboxCall where
  | matchBySerial (serial : String)
  | readInterfaces (device : Nat)
  | createInterface (device : Nat) (name : String)
  | deleteInterface (interface : Nat)
  | createIp (interface : Nat) (address : String)
  | moveIp (ip interface : Nat)
  | deleteIp (ip : Nat)
  | finalizeDevice (device : Nat) (primaryIp4 primaryIp6 : Option Nat) (hostId : String)
deriving DecidableEq

/-- What a call returns. -/
def NetboxCall.Answer : NetboxCall → Type
  | .matchBySerial _ => SerialMatch
  | .readInterfaces _ => List NbInterface
  | .createInterface _ _ => Nat
  | .createIp _ _ => Nat
  | _ => Unit

/-- NetBox answers a call. -/
def Netbox.serve (server : NetboxServer) : (c : NetboxCall) → Netbox → c.Answer × Netbox
  | .matchBySerial serial, nb => (nb.matchBySerial server serial, nb)
  | .readInterfaces device, nb => (nb.readInterfaces server device, nb)
  | .createInterface device name, nb => nb.createInterface device name
  | .deleteInterface interface, nb => ((), nb.deleteInterface interface)
  | .createIp interface address, nb => nb.createIp interface address
  | .moveIp ip interface, nb => ((), nb.moveIp ip interface)
  | .deleteIp ip, nb => ((), nb.deleteIp ip)
  | .finalizeDevice device primaryIp4 primaryIp6 hostId, nb =>
      ((), nb.finalizeDevice device primaryIp4 primaryIp6 hostId)

/-- A call that creates, moves, deletes or finalizes something. -/
def NetboxCall.isWrite : NetboxCall → Bool
  | .matchBySerial _ | .readInterfaces _ => false
  | _ => true

/-- A program over the seam. -/
abbrev NetboxProg (A : Type) := Prog NetboxCall NetboxCall.Answer A

/-- NetBox, what becomes of the calls, and the calls made. -/
abbrev NetboxWorld := World Netbox NetboxCall PortError

namespace NetboxDevices

def matchBySerial (serial : String) : NetboxProg SerialMatch :=
  perform (NetboxCall.matchBySerial serial)

def readInterfaces (device : Nat) : NetboxProg (List NbInterface) :=
  perform (NetboxCall.readInterfaces device)

def createInterface (device : Nat) (name : String) : NetboxProg Nat :=
  perform (NetboxCall.createInterface device name)

def deleteInterface (interface : Nat) : NetboxProg Unit :=
  perform (NetboxCall.deleteInterface interface)

def createIp (interface : Nat) (address : String) : NetboxProg Nat :=
  perform (NetboxCall.createIp interface address)

def moveIp (ip interface : Nat) : NetboxProg Unit :=
  perform (NetboxCall.moveIp ip interface)

def deleteIp (ip : Nat) : NetboxProg Unit :=
  perform (NetboxCall.deleteIp ip)

def finalizeDevice (device : Nat) (primaryIp4 primaryIp6 : Option Nat) (hostId : String) :
    NetboxProg Unit :=
  perform (NetboxCall.finalizeDevice device primaryIp4 primaryIp6 hostId)

end NetboxDevices

/-! ## Reconcile -/

/-- {lit}`current_by_name`: of two interfaces with one name the later counts. -/
def currentByName (current : List NbInterface) (name : String) : Option NbInterface :=
  current.reverse.find? (fun i => i.name = name)

/-- {lit}`existing_ips`: of two rows with one address the earlier counts.  The row and
the interface it is on. -/
def existingIps (current : List NbInterface) (cidr : String) : Option (Nat × Nat) :=
  (current.flatMap fun i => i.ips.map fun ip => (ip.address, ip.id, i.id)).lookup cidr

/-- What the first two phases remember: the rows to keep and the primary addresses. -/
structure Kept where
  primaryIp4 : Option Nat
  primaryIp6 : Option Nat
  keptIpIds : List Nat
deriving DecidableEq

/-- Keep a row; the first of its kind becomes the primary address. -/
def Kept.keep (k : Kept) (cidr : String) (ip : Nat) : Kept where
  primaryIp4 := if isIpv4Cidr cidr then k.primaryIp4.or (some ip) else k.primaryIp4
  primaryIp6 := if isIpv4Cidr cidr then k.primaryIp6 else k.primaryIp6.or (some ip)
  keptIpIds := k.keptIpIds ++ [ip]

/-- The addresses of an observed interface that parse. -/
def cidrs (iface : InventoryInterface) : List String :=
  iface.ipAddresses.filterMap (fun ip => toCidr ip.text)

/-- One turn of the inner loop: reuse the row of an address, moving it if needed, or
create it. -/
def placeIp (current : List NbInterface) (interfaceId : Nat) (k : Kept) (cidr : String) :
    NetboxProg Kept :=
  match existingIps current cidr with
  | some (id, curIface) =>
      if curIface ≠ interfaceId then do
        NetboxDevices.moveIp id interfaceId
        pure (k.keep cidr id)
      else pure (k.keep cidr id)
  | none => do
      let id ← NetboxDevices.createIp interfaceId cidr
      pure (k.keep cidr id)

/-- The interface of an observed name: an existing one or a new one. -/
def ensureInterface (device : Nat) (current : List NbInterface) (name : String) : NetboxProg Nat :=
  match currentByName current name with
  | some cur => pure cur.id
  | none => NetboxDevices.createInterface device name

/-- One turn of the outer loop. -/
def placeInterface (device : Nat) (current : List NbInterface) (k : Kept)
    (iface : InventoryInterface) : NetboxProg Kept := do
  let interfaceId ← ensureInterface device current iface.name.text
  (cidrs iface).foldlM (placeIp current interfaceId) k

/-- {lit}`reconcile`. -/
def reconcile (device : Nat) (host : HostId) (observed : Inventory) : NetboxProg Unit := do
  let current ← NetboxDevices.readInterfaces device
  let k ← observed.interfaces.foldlM (placeInterface device current) ⟨none, none, []⟩
  NetboxDevices.finalizeDevice device k.primaryIp4 k.primaryIp6 host.toStr.text
  (current.flatMap NbInterface.ips).forM fun ip =>
    if ip.id ∉ k.keptIpIds then NetboxDevices.deleteIp ip.id else pure ()
  current.forM fun cur =>
    if cur.name ∉ observed.interfaces.map (fun i => i.name.text) then
      NetboxDevices.deleteInterface cur.id
    else pure ()

/-- Reconcile a device once: the result, and NetBox and the calls after it. -/
def reconcileOn (server : NetboxServer) (device : Nat) (host : HostId) (observed : Inventory)
    (nb : Netbox) (fates : List (Fate PortError)) : Except PortError Unit × NetboxWorld :=
  exec (Netbox.serve server) (reconcile device host observed) ⟨nb, fates, []⟩

/-! ## Upserts -/

/-- {lit}`UpsertOutcome`. -/
inductive UpsertOutcome where
  | updated
  | unchanged
  | unmatched
  | skippedNoSerial
  | ambiguousMatch (count : Nat)
  | hostCollision
deriving DecidableEq

/-- The device carries the stamp of another host. -/
def DeviceRef.claimedByOther (device : DeviceRef) (host : HostId) : Bool :=
  (device.hostId.filter (· ≠ "")).any (fun claimed => claimed ≠ host.toStr.text)

/-- {lit}`match_and_reconcile`. -/
def matchAndReconcile (serial : String) (host : HostId) (observed : Inventory) :
    NetboxProg UpsertOutcome := do
  match ← NetboxDevices.matchBySerial serial with
  | .none => pure .unmatched
  | .one device =>
      if device.claimedByOther host then pure .hostCollision
      else do
        reconcile device.id host observed
        pure .updated
  | .many count => pure (.ambiguousMatch count)

/-- {lit}`MAX_TRANSIENT_RETRIES`. -/
def maxTransientRetries : Nat := 3

/-- {lit}`is_transient`. -/
def isTransient : PortError → Bool
  | .backend _ | .transport _ => true
  | _ => false

/-- The bytes that {lit}`content_hash` hashes. -/
def contentBytes (serial : String) (host : HostId) (observed : Inventory) : Bytes :=
  utf8 serial ++ 0x02 :: (host.uuid.asBytes ++ observed.interfaces.flatMap fun iface =>
    0xff :: (utf8 iface.name.text ++ iface.ipAddresses.flatMap fun ip => 0x00 :: utf8 ip.text))

/-- {lit}`content_hash`. -/
def contentHash (serial : String) (host : HostId) (observed : Inventory) : String :=
  sha256Hex (contentBytes serial host observed)

/-- The serial an inventory is matched on: trimmed and not empty. -/
def usableSerial (observed : Inventory) : Option String :=
  (observed.dmiSerial.map fun s => String.ofList (trim s.text.toList)).filter (· ≠ "")

/-- The cache {lit}`synced` of the sink. -/
abbrev Synced := Table HostId String

/-- {lit}`upsert`: the result, the cache and NetBox after it.  The lock of the host is
held throughout. -/
def upsert (server : NetboxServer) (synced : Synced) (host : HostId) (observed : Inventory)
    (w : NetboxWorld) : Except PortError UpsertOutcome × Synced × NetboxWorld :=
  match usableSerial observed with
  | none => (.ok .skippedNoSerial, synced, w)
  | some serial =>
      let hash := contentHash serial host observed
      if synced.lookup host = some hash then (.ok .unchanged, synced, w)
      else
        match retrying isTransient
            (exec (Netbox.serve server) (matchAndReconcile serial host observed))
            maxTransientRetries w with
        | (.error e, w) => (.error e, synced, w)
        | (.ok outcome, w) =>
            (.ok outcome, if outcome = .updated then synced.put host hash else synced, w)

/-! ## What a read lists -/

section Reads

variable {server : NetboxServer} {nb : Netbox} {device : Nat}

/-- A read lists the interfaces of the device with the rows on them. -/
theorem mem_readInterfaces {i : NbInterface} (h : i ∈ nb.readInterfaces server device) :
    nb.interfaces.get i.id = some ⟨device, i.name⟩ ∧
    ∀ ip, ip ∈ i.ips ↔ nb.ips.get ip.id = some ⟨i.id, ip.address⟩ := by
  obtain ⟨⟨id, row⟩, hrow, rfl⟩ := List.mem_map.mp h
  obtain ⟨hmem, hdevice⟩ := List.mem_filter.mp ((server.interfaceOrder_perm _).mem_iff.mp hrow)
  have hdevice : row.device = device := by simpa using hdevice
  refine ⟨by rw [RowTable.mem_rows_iff.mp hmem, ← hdevice], ?_⟩
  intro ip
  rw [List.mem_map]
  constructor
  · rintro ⟨⟨ipId, ipRow⟩, hip, rfl⟩
    obtain ⟨hipMem, hon⟩ := List.mem_filter.mp ((server.ipOrder_perm _).mem_iff.mp hip)
    have hon : ipRow.interface = id := by simpa using hon
    rw [RowTable.mem_rows_iff.mp hipMem, ← hon]
  · intro hip
    refine ⟨(ip.id, ⟨id, ip.address⟩), ?_, rfl⟩
    rw [(server.ipOrder_perm _).mem_iff, List.mem_filter]
    exact ⟨RowTable.mem_rows_iff.mpr hip, by simp⟩

/-- Every interface of the device is listed. -/
theorem exists_mem_readInterfaces (server : NetboxServer) {id : Nat} {name : String}
    (h : nb.interfaces.get id = some ⟨device, name⟩) :
    ∃ i ∈ nb.readInterfaces server device, i.id = id ∧ i.name = name := by
  refine ⟨_, List.mem_map_of_mem (a := (id, (⟨device, name⟩ : InterfaceRow))) ?_, rfl, rfl⟩
  rw [(server.interfaceOrder_perm _).mem_iff, List.mem_filter]
  exact ⟨RowTable.mem_rows_iff.mpr h, by simp⟩

end Reads

/-! ## A sample NetBox

One device with an address listed twice on an interface that is no longer reported,
and one device without interfaces. -/

def sampleServer : NetboxServer where
  serialFilter := fun query serial => query = serial
  interfaceOrder := id
  interfaceOrder_perm := List.Perm.refl
  ipOrder := id
  ipOrder_perm := List.Perm.refl

def sampleNetbox : Netbox where
  devices :=
    { rows := [(1, ⟨some "S1", none, none, none⟩), (2, ⟨some "S2", none, none, none⟩)]
      next := 3
      nodup := by decide
      fresh := by decide }
  interfaces :=
    { rows := [(1, ⟨1, "eth0"⟩), (2, ⟨1, "old0"⟩)]
      next := 3
      nodup := by decide
      fresh := by decide }
  ips :=
    { rows := [(1, ⟨2, "192.0.2.5/32"⟩), (2, ⟨2, "192.0.2.5/32"⟩)]
      next := 3
      nodup := by decide
      fresh := by decide }
  assigned := by
    intro id row h
    have hmem := RowTable.mem_rows_iff.mpr h
    simp only [List.mem_cons, Prod.mk.injEq, List.not_mem_nil, or_false] at hmem
    rcases hmem with ⟨-, rfl⟩ | ⟨-, rfl⟩ <;> decide

/-- An inventory with a serial and interfaces. -/
def sampleInventory (serial : Str) (interfaces : List (Str × List Str)) : Inventory :=
  ⟨some serial, none, interfaces.map fun i => ⟨i.1, default, i.2⟩, []⟩

/-- The first device reports the address on another interface, and a new one. -/
def sampleObserved : Inventory :=
  sampleInventory (Str.lit "S1")
    [(Str.lit "eth0", [Str.lit "192.0.2.5"]), (Str.lit "eth1", [Str.lit "fe80::1"])]

end Coordinator
end OpenSsmAgent
