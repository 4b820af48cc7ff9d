import OpenSsmAgent.Coordinator.NetboxOwnership
import OpenSsmAgent.Lib.Separated

/-!
# Deduplicated inventories

An upsert whose content hash is the cached one returns without a call to NetBox, so
its answer is only as good as the cache.  The cache is written after a complete
reconcile and left alone by one that fails, also by one that fails after it has
written to the device.  What an entry stands for is said here once: a complete
reconcile of the snapshot with that hash, after which no call touched the device.
Every upsert that ends well keeps that for all entries, and so does one that NetBox
refuses from its first call on.

Main results:

- Theorem {lit}`snapshot_eq_of_contentHash`: without zero characters the content hash
  determines what a reconcile reads.
- Theorem {lit}`Cached.run`: what every entry of the cache stands for.
- Theorem {lit}`unchanged_in_netbox`: what an unchanged inventory says of NetBox.
- Theorem {lit}`unchanged_after_failed_upsert`: a run in which it does not hold.
-/

open Framing RemoteCalls Separated Sha256

namespace OpenSsmAgent
namespace Coordinator

open Domain Wire Proto

/-! ## What the content hash determines -/

/-- What a reconcile reads of an interface. -/
def interfaceSeen (iface : InventoryInterface) : Str × List Str :=
  (iface.name, iface.ipAddresses)

/-- What an upsert reads of an inventory: the serial and the interfaces. -/
def snapshot (observed : Inventory) : Option String × List (Str × List Str) :=
  (usableSerial observed, observed.interfaces.map interfaceSeen)

/-- No name and no address contains the zero character. -/
def NulFree (observed : Inventory) : Prop :=
  ∀ iface ∈ observed.interfaces, Char.ofNat 0 ∉ iface.name.text.toList ∧
    ∀ ip ∈ iface.ipAddresses, Char.ofNat 0 ∉ ip.text.toList

instance (observed : Inventory) : Decidable (NulFree observed) :=
  inferInstanceAs (Decidable (∀ iface ∈ observed.interfaces, _ ∧ ∀ ip ∈ iface.ipAddresses, _))

section Contents

variable {serial serial' : String} {host : HostId} {observed observed' : Inventory}

/-- The record of an interface in the hashed bytes. -/
def interfaceRecord (iface : InventoryInterface) : Bytes :=
  utf8 iface.name.text ++ behind 0x00 (iface.ipAddresses.map fun ip => utf8 ip.text)

theorem contentBytes_eq (serial : String) (host : HostId) (observed : Inventory) :
    contentBytes serial host observed = utf8 serial ++ 0x02 :: (host.uuid.asBytes ++
      behind 0xff (observed.interfaces.map interfaceRecord)) := by
  simp only [contentBytes, behind, List.flatMap_map, interfaceRecord]

theorem ff_notMem_record (iface : InventoryInterface) : 0xff ∉ interfaceRecord iface := by
  intro hmem
  rcases List.mem_append.mp hmem with hmem | hmem
  · exact ff_notMem_utf8 _ hmem
  · obtain ⟨item, hitem, hmem⟩ := List.mem_flatMap.mp hmem
    obtain ⟨ip, -, rfl⟩ := List.mem_map.mp hitem
    rcases List.mem_cons.mp hmem with hzero | hmem
    · exact absurd hzero (by decide)
    · exact ff_notMem_utf8 _ hmem

/-- Without zero characters a record determines its name and its addresses. -/
theorem seen_eq_of_record {a b : InventoryInterface}
    (ha : Char.ofNat 0 ∉ a.name.text.toList ∧ ∀ ip ∈ a.ipAddresses, Char.ofNat 0 ∉ ip.text.toList)
    (hb : Char.ofNat 0 ∉ b.name.text.toList ∧ ∀ ip ∈ b.ipAddresses, Char.ofNat 0 ∉ ip.text.toList)
    (h : interfaceRecord a = interfaceRecord b) : interfaceSeen a = interfaceSeen b := by
  have hplain : ∀ ips : List Str, (∀ ip ∈ ips, Char.ofNat 0 ∉ ip.text.toList) →
      ∀ item ∈ ips.map (fun ip => utf8 ip.text), 0x00 ∉ item := by
    intro ips hips item hitem
    obtain ⟨ip, hip, rfl⟩ := List.mem_map.mp hitem
    exact zero_notMem_utf8 (hips ip hip)
  obtain ⟨hname, hips⟩ := append_behind_inj (zero_notMem_utf8 ha.1) (zero_notMem_utf8 hb.1)
    (hplain _ ha.2) (hplain _ hb.2) h
  have hinjective : Function.Injective fun ip : Str => utf8 ip.text :=
    fun ip ip' heq => Str.ext_text (utf8_injective heq)
  exact Prod.ext (Str.ext_text (utf8_injective hname)) (hinjective.list_map hips)

/-- Equal hashed bytes of one host come from equal snapshots. -/
theorem contentBytes_inj (hplain : NulFree observed) (hplain' : NulFree observed')
    (h : contentBytes serial host observed = contentBytes serial' host observed') :
    serial = serial' ∧ observed.interfaces.map interfaceSeen =
      observed'.interfaces.map interfaceSeen := by
  rw [contentBytes_eq, contentBytes_eq] at h
  obtain ⟨hserial, hrecords⟩ := eq_of_marked (by decide) (ff_notMem_utf8 serial)
    (ff_notMem_utf8 serial') (behind_head _) (behind_head _) h
  have hno : ∀ ifaces : List InventoryInterface,
      ∀ item ∈ ifaces.map interfaceRecord, 0xff ∉ item := by
    intro ifaces item hitem
    obtain ⟨iface, -, rfl⟩ := List.mem_map.mp hitem
    exact ff_notMem_record iface
  have hlist := behind_inj (hno _) (hno _) hrecords
  refine ⟨utf8_injective hserial, ?_⟩
  unfold NulFree at hplain hplain'
  -- the records agree one by one
  generalize observed.interfaces = ifaces at hplain hlist
  generalize observed'.interfaces = ifaces' at hplain' hlist
  induction ifaces generalizing ifaces' with
  | nil =>
      cases ifaces' with
      | nil => rfl
      | cons b rest' => simp at hlist
  | cons a rest ih =>
      cases ifaces' with
      | nil => simp at hlist
      | cons b rest' =>
          simp only [List.map_cons, List.cons.injEq] at hlist
          have hhead := seen_eq_of_record (hplain a List.mem_cons_self)
            (hplain' b List.mem_cons_self) hlist.1
          have htail := ih (fun c hc => hplain c (List.mem_cons_of_mem _ hc)) rest'
            (fun c hc => hplain' c (List.mem_cons_of_mem _ hc)) hlist.2
          simp only [List.map_cons, hhead, htail]

-- a zero character in a name reads like the start of an address
example : contentBytes "S1" sampleHost
      (sampleInventory (Str.lit "S1") [(Str.lit "a", [Str.lit "192.0.2.5"])]) =
    contentBytes "S1" sampleHost
      (sampleInventory (Str.lit "S1") [(Str.lit "a\x00192.0.2.5", [])]) := by
  decide +kernel

end Contents

/-! ## What a reconcile reads -/

theorem placeInterface_seen {device : Nat} {current : List NbInterface} {k : Kept}
    {a b : InventoryInterface} (h : interfaceSeen a = interfaceSeen b) :
    placeInterface device current k a = placeInterface device current k b := by
  obtain ⟨hname, hips⟩ := Prod.mk.inj h
  simp only [placeInterface, cidrs, hname, hips]

/-- A reconcile reads the names and addresses only. -/
theorem reconcile_seen {observed observed' : Inventory} (device : Nat) (host : HostId)
    (h : observed.interfaces.map interfaceSeen =
      observed'.interfaces.map interfaceSeen) :
    reconcile device host observed = reconcile device host observed' := by
  have hnames : observed.interfaces.map (fun i => i.name.text) =
      observed'.interfaces.map (fun i => i.name.text) := by
    simpa [Function.comp_def, interfaceSeen] using
      congrArg (List.map fun seen : Str × List Str => seen.1.text) h
  have hplace : ∀ current k, observed.interfaces.foldlM (placeInterface device current) k =
      observed'.interfaces.foldlM (placeInterface device current) k := by
    intro current
    generalize observed.interfaces = ifaces at h
    generalize observed'.interfaces = ifaces' at h
    induction ifaces generalizing ifaces' with
    | nil =>
        cases ifaces' with
        | nil => exact fun _ => rfl
        | cons b rest' => simp at h
    | cons a rest ih =>
        cases ifaces' with
        | nil => simp at h
        | cons b rest' =>
            simp only [List.map_cons, List.cons.injEq] at h
            intro k
            simp only [List.foldlM_cons, placeInterface_seen h.1, ih rest' h.2]
  simp only [reconcile, hnames, hplace]

/-! ## Upserts that end well -/

/-- The calls to NetBox are answered well enough: there are no more faults than
retries and all of them transient, or no attempt gets an answer to its match. -/
def Tolerated (fates : List (Fate PortError)) : Prop :=
  ((fates.filterMap Fate.error?).length ≤ maxTransientRetries ∧
    ∀ e ∈ fates.filterMap Fate.error?, isTransient e = true) ∨
  refused isTransient maxTransientRetries fates = true

instance (fates : List (Fate PortError)) : Decidable (Tolerated fates) :=
  inferInstanceAs (Decidable ((_ ∧ ∀ e ∈ fates.filterMap Fate.error?, _) ∨ _))

section Steps

variable {server : NetboxServer} {st : SinkState} {u : UpsertStep}

/-- An upsert outlasts as many transient faults as it has retries. -/
theorem upsert_recovers (server : NetboxServer) (st : SinkState)
    (hfew : (u.fates.filterMap Fate.error?).length ≤ maxTransientRetries)
    (htransient : ∀ e ∈ u.fates.filterMap Fate.error?, isTransient e = true) :
    ∃ outcome, (st.upsert server u).outcome = .ok outcome := by
  unfold SinkState.upsert Coordinator.upsert
  dsimp only
  split
  · exact ⟨_, rfl⟩
  · rename_i serial _
    split_ifs
    · exact ⟨_, rfl⟩
    · have hfault : ∀ (w : NetboxWorld) e w',
          exec (Netbox.serve server) (matchAndReconcile serial u.host u.observed) w =
            (.error e, w') → w.faults = e :: w'.faults := by
        intro w e w' hout
        have hends := exec_faults (Netbox.serve server)
          (matchAndReconcile serial u.host u.observed) w
        rw [hout] at hends
        exact hends
      obtain ⟨outcome, hok⟩ := retrying_ok (w := ⟨st.netbox, u.fates, []⟩) hfault hfew htransient
      split
      · rename_i e w hout
        rw [hout] at hok
        cases hok
      · exact ⟨_, rfl⟩

/-- An upsert that NetBox refuses leaves it as it was. -/
theorem upsert_refused (server : NetboxServer) (st : SinkState)
    (h : refused isTransient maxTransientRetries u.fates = true) :
    (st.upsert server u).state = st ∧ ∀ e ∈ (st.upsert server u).calls, e.1.isWrite = false := by
  unfold SinkState.upsert Coordinator.upsert
  dsimp only
  split
  · exact ⟨rfl, by simp⟩
  · rename_i serial _
    split_ifs
    · exact ⟨rfl, by simp⟩
    · obtain ⟨k, hfirst⟩ : ∃ k, matchAndReconcile serial u.host u.observed =
          Prog.call (.matchBySerial serial) k := ⟨_, rfl⟩
      obtain ⟨e, fates', calls', hout, hmade⟩ : ∃ e fates' calls',
          retrying isTransient (exec (Netbox.serve server) (.call (.matchBySerial serial) k))
            maxTransientRetries ⟨st.netbox, u.fates, []⟩ =
              (.error e, ⟨st.netbox, fates', [] ++ calls'⟩) ∧
          ∀ made ∈ calls', made = (.matchBySerial serial, st.netbox) :=
        retrying_refused rfl h
      rw [hfirst, hout]
      refine ⟨rfl, ?_⟩
      intro made hmem
      rw [hmade made hmem]
      rfl

/-- With tolerated faults an upsert changes nothing or reconciles its device
completely. -/
theorem upsert_settles (server : NetboxServer) (st : SinkState) (h : Tolerated u.fates) :
    ((st.upsert server u).state = st ∧
      ∀ e ∈ (st.upsert server u).calls, e.1.isWrite = false) ∨
    ∃ serial r, usableSerial u.observed = some serial ∧
      st.netbox.matchBySerial server serial = .one r ∧ r.claimedByOther u.host = false ∧
      WroteOn r.id u.host st.netbox (st.upsert server u).state.netbox ∧
      (st.upsert server u).outcome = .ok .updated ∧
      (st.upsert server u).state.synced =
        st.synced.put u.host (contentHash serial u.host u.observed) ∧
      StampSet r.id u.host (st.upsert server u).state.netbox ∧
      Reconciled server r.id u.host u.observed (st.upsert server u).state.netbox := by
  rcases h with ⟨hfew, htransient⟩ | hrefused
  · have hsame : ∀ {synced : Synced} {netbox : Netbox}, synced = st.synced →
        netbox = st.netbox → SinkState.mk synced netbox = st := by
      rintro _ _ rfl rfl
      rfl
    cases st.upsert_cases server u with
    | quiet _ _ hsynced hstate hcalls => exact Or.inl ⟨hsame hsynced hstate, hcalls⟩
    | unchanged serial _ _ _ hsynced hstate hcalls =>
        have hnone : (st.upsert server u).calls = [] := hcalls
        exact Or.inl ⟨hsame hsynced hstate, by simp [hnone]⟩
    | wrote serial r hserial hmatch hfree hwrote _ hresult =>
        rcases hresult with ⟨hupdated, hsynced, hstamp, hreconciled⟩ | ⟨⟨e, herror⟩, -⟩
        · exact Or.inr ⟨serial, r, hserial, hmatch, hfree, hwrote, hupdated, hsynced, hstamp,
            hreconciled⟩
        · obtain ⟨outcome, hok⟩ := upsert_recovers server st hfew htransient
          exact absurd (hok.symm.trans herror) (by simp)
  · exact Or.inl (upsert_refused server st hrefused)

theorem upsert_serials (server : NetboxServer) (st : SinkState) (u : UpsertStep) :
    (st.upsert server u).state.netbox.serials = st.netbox.serials := by
  cases st.upsert_cases server u with
  | quiet _ _ _ hstate _ => exact congrArg Netbox.serials hstate
  | unchanged serial _ _ _ _ hstate _ => exact congrArg Netbox.serials hstate
  | wrote serial r _ _ _ hwrote _ _ => exact hwrote.serials

end Steps

/-! ## What a cached hash stands for -/

/-- The calls of a run, each with the NetBox it met. -/
def SinkState.callsOf (server : NetboxServer) (st : SinkState) :
    List UpsertStep → List (NetboxCall × Netbox)
  | [] => []
  | u :: us => (st.upsert server u).calls ++ (st.upsert server u).state.callsOf server us

theorem SinkState.run_snoc (server : NetboxServer) (st : SinkState) (us : List UpsertStep)
    (u : UpsertStep) :
    st.run server (us ++ [u]) = ((st.run server us).upsert server u).state := by
  simp [SinkState.run]

theorem SinkState.callsOf_snoc (server : NetboxServer) (st : SinkState) (us : List UpsertStep)
    (u : UpsertStep) :
    st.callsOf server (us ++ [u]) =
      st.callsOf server us ++ ((st.run server us).upsert server u).calls := by
  induction us generalizing st with
  | nil => simp [SinkState.callsOf, SinkState.run]
  | cons v us ih =>
      simp only [List.cons_append, SinkState.callsOf, ih, List.append_assoc]
      rfl

/-- An upsert of a run has reconciled a device completely, the device is still the
match of its serial, and no later call has touched it. -/
structure InPlace (server : NetboxServer) (first : SinkState) (earlier : List UpsertStep)
    (v : UpsertStep) (between : List UpsertStep) (serial : String) (device : Nat) : Prop where
  usable : usableSerial v.observed = some serial
  updated : ((first.run server earlier).upsert server v).outcome = .ok .updated
  reconciled : Reconciled server device v.host v.observed
    ((first.run server earlier).upsert server v).state.netbox
  kept : DeviceKept device ((first.run server earlier).upsert server v).state.netbox
    (first.run server (earlier ++ v :: between)).netbox
  untouched : ∀ e ∈ ((first.run server earlier).upsert server v).state.callsOf server between,
    device ∉ e.1.touches e.2
  stamped : Stamped (first.run server (earlier ++ v :: between)).netbox device v.host
  matched : ∃ r, (first.run server (earlier ++ v :: between)).netbox.matchBySerial server serial =
    .one r ∧ r.id = device

/-- Every hash of the cache comes from such an upsert of its host. -/
def Cached (server : NetboxServer) (first : SinkState) (us : List UpsertStep) : Prop :=
  ∀ host hash, (first.run server us).synced.lookup host = some hash →
    ∃ earlier v between serial device, us = earlier ++ v :: between ∧ v.host = host ∧
      contentHash serial host v.observed = hash ∧
      InPlace server first earlier v between serial device

section Cache

variable {server : NetboxServer} {first : SinkState} {earlier between us : List UpsertStep}
  {u v : UpsertStep} {serial : String} {device : Nat}

/-- An upsert that does not touch the device leaves it in place. -/
theorem InPlace.snoc (h : InPlace server first earlier v between serial device)
    (huntouched : ∀ e ∈ ((first.run server (earlier ++ v :: between)).upsert server u).calls,
      device ∉ e.1.touches e.2)
    (hkept : DeviceKept device (first.run server (earlier ++ v :: between)).netbox
      ((first.run server (earlier ++ v :: between)).upsert server u).state.netbox) :
    InPlace server first earlier v (between ++ [u]) serial device := by
  have hrun : first.run server (earlier ++ v :: (between ++ [u])) =
      ((first.run server (earlier ++ v :: between)).upsert server u).state := by
    rw [← SinkState.run_snoc, List.append_assoc, List.cons_append]
  have hmiddle : ((first.run server earlier).upsert server v).state.run server between =
      first.run server (earlier ++ v :: between) := by
    simp [SinkState.run]
  refine ⟨h.usable, h.updated, h.reconciled, ?_, ?_, ?_, ?_⟩
  · rw [hrun]
    exact h.kept.trans hkept
  · intro e he
    rw [SinkState.callsOf_snoc, hmiddle] at he
    rcases List.mem_append.mp he with he | he
    · exact h.untouched e he
    · exact huntouched e he
  · rw [hrun]
    exact h.stamped.upsert
  · rw [hrun]
    obtain ⟨r, hmatch, hid⟩ := h.matched
    have hsame := sameMatch_of_serials server
      (upsert_serials server (first.run server (earlier ++ v :: between)) u) serial
    rw [hmatch] at hsame
    cases hafter : (((first.run server (earlier ++ v :: between)).upsert server u).state.netbox
        ).matchBySerial server serial with
    | none => rw [hafter] at hsame; cases hsame
    | many count => rw [hafter] at hsame; cases hsame
    | one r' =>
        rw [hafter] at hsame
        cases hsame with
        | one _ _ hids => exact ⟨r', rfl, hids.symm.trans hid⟩

/-- A complete reconcile puts its snapshot in place. -/
theorem inPlace_of_wrote {r : DeviceRef} (hserial : usableSerial u.observed = some serial)
    (hmatch : (first.run server us).netbox.matchBySerial server serial = .one r)
    (hfree : r.claimedByOther u.host = false)
    (hwrote : WroteOn r.id u.host (first.run server us).netbox
      ((first.run server us).upsert server u).state.netbox)
    (hupdated : ((first.run server us).upsert server u).outcome = .ok .updated)
    (hstamp : StampSet r.id u.host ((first.run server us).upsert server u).state.netbox)
    (hreconciled : Reconciled server r.id u.host u.observed
      ((first.run server us).upsert server u).state.netbox) :
    InPlace server first us u [] serial r.id := by
  obtain ⟨r', hmatch', hid, -⟩ := hwrote.free hmatch hfree
  obtain ⟨row, hrow, -⟩ := matchBySerial_one hmatch'
  rw [hid] at hrow
  have hrun := SinkState.run_snoc server first us u
  refine ⟨hserial, hupdated, hreconciled, ?_, by simp [SinkState.callsOf], ?_, ?_⟩
  · rw [hrun]
    exact DeviceKept.refl _ _
  · rw [hrun, Stamped, hrow]
    simp [hstamp row hrow]
  · rw [hrun]
    exact ⟨r', hmatch', hid⟩

/-- An upsert with tolerated faults keeps what the cache stands for. -/
theorem Cached.snoc (h : Cached server first us) (hfates : Tolerated u.fates) :
    Cached server first (us ++ [u]) := by
  intro host hash hlookup
  rw [SinkState.run_snoc] at hlookup
  -- an older entry whose device this upsert leaves alone
  have hextend : (first.run server us).synced.lookup host = some hash →
      (∀ device, Stamped (first.run server us).netbox device host →
        (∀ e ∈ ((first.run server us).upsert server u).calls, device ∉ e.1.touches e.2) ∧
        DeviceKept device (first.run server us).netbox
          ((first.run server us).upsert server u).state.netbox) →
      ∃ earlier v between serial device, us ++ [u] = earlier ++ v :: between ∧ v.host = host ∧
        contentHash serial host v.observed = hash ∧
        InPlace server first earlier v between serial device := by
    intro hold halone
    obtain ⟨earlier, v, between, serial, device, rfl, rfl, hhash, hplace⟩ := h host hash hold
    obtain ⟨huntouched, hkept⟩ := halone device hplace.stamped
    exact ⟨earlier, v, between ++ [u], serial, device, by simp, rfl, hhash,
      hplace.snoc huntouched hkept⟩
  rcases upsert_settles server (first.run server us) hfates with
    ⟨hstate, hcalls⟩ | ⟨serial, r, hserial, hmatch, hfree, hwrote, hupdated, hsynced, hstamp, hdone⟩
  · rw [hstate] at hlookup hextend
    refine hextend hlookup fun device _ => ⟨?_, DeviceKept.refl _ _⟩
    intro e he
    simp [touches_of_not_isWrite (hcalls e he)]
  · by_cases hhost : host = u.host
    · subst hhost
      rw [hsynced, Table.lookup_put_self] at hlookup
      exact ⟨us, u, [], serial, r.id, rfl, rfl, Option.some.inj hlookup,
        inPlace_of_wrote hserial hmatch hfree hwrote hupdated hstamp hdone⟩
    · rw [hsynced, Table.lookup_put_ne _ _ hhost] at hlookup
      exact hextend hlookup fun device hstamped =>
        stamped_untouched server hstamped (Ne.symm hhost)

/-- What the cache of a new sink stands for after a run. -/
theorem Cached.run (server : NetboxServer) (netbox : Netbox)
    (hfates : ∀ s ∈ us, Tolerated s.fates) : Cached server ⟨∅, netbox⟩ us := by
  induction us using List.reverseRecOn with
  | nil =>
      intro host hash hlookup
      simp [SinkState.run] at hlookup
  | append_singleton us u ih =>
      exact (ih fun s hs => hfates s (List.mem_append_left _ hs)).snoc
        (hfates u (List.mem_append_right _ List.mem_cons_self))

end Cache

/-! ## Unchanged inventories -/

/-- The byte strings that the upserts of a run hash. -/
def hashedContents (us : List UpsertStep) : Set Bytes :=
  { bytes | ∃ s ∈ us, ∃ serial, usableSerial s.observed = some serial ∧
    bytes = contentBytes serial s.host s.observed }

/-- Under a collision-free hash the cached content hash determines the snapshot. -/
theorem snapshot_eq_of_contentHash {us : List UpsertStep} {u v : UpsertStep}
    {serial serial' : String} (hhash : CollisionFreeOn (hashedContents us)) (hu : u ∈ us)
    (hv : v ∈ us) (hhost : v.host = u.host) (hplain : NulFree v.observed)
    (hplain' : NulFree u.observed) (hserial : usableSerial v.observed = some serial)
    (hserial' : usableSerial u.observed = some serial')
    (h : contentHash serial u.host v.observed = contentHash serial' u.host u.observed) :
    serial = serial' ∧ snapshot v.observed = snapshot u.observed := by
  have hbytes : contentBytes serial u.host v.observed = contentBytes serial' u.host u.observed :=
    sha256Hex_injOn hhash ⟨v, hv, serial, hserial, by rw [hhost]⟩ ⟨u, hu, serial', hserial', rfl⟩ h
  obtain ⟨rfl, hseen⟩ := contentBytes_inj hplain hplain' hbytes
  exact ⟨rfl, Prod.ext (hserial.trans hserial'.symm) hseen⟩

/-- In every run of a new sink, by any hosts, whose faults are tolerated and whose
names and addresses have no zero character: where an upsert returns unchanged, an
earlier upsert of the host had the same snapshot and reconciled it completely on the
device that the serial matches, and no call has touched the device since. -/
theorem unchanged_in_netbox (server : NetboxServer) (netbox : Netbox) (us : List UpsertStep)
    (u : UpsertStep) (hhash : CollisionFreeOn (hashedContents (us ++ [u])))
    (hplain : ∀ s ∈ us ++ [u], NulFree s.observed) (hfates : ∀ s ∈ us, Tolerated s.fates) :
    let first : SinkState := ⟨∅, netbox⟩
    let now := first.run server us
    (now.upsert server u).outcome = .ok .unchanged →
    ∃ earlier v between serial r,
      let left := (first.run server earlier).upsert server v
      us = earlier ++ v :: between ∧ v.host = u.host ∧
      snapshot v.observed = snapshot u.observed ∧ usableSerial u.observed = some serial ∧
      now.netbox.matchBySerial server serial = .one r ∧ left.outcome = .ok .updated ∧
      Reconciled server r.id u.host u.observed left.state.netbox ∧
      DeviceKept r.id left.state.netbox now.netbox ∧
      ∀ e ∈ left.state.callsOf server between, r.id ∉ e.1.touches e.2 := by
  intro first now hunchanged
  cases now.upsert_cases server u with
  | quiet _ hne _ _ _ => exact absurd hunchanged hne
  | wrote _ _ _ _ _ _ _ hresult =>
      rcases hresult with ⟨hupdated, -⟩ | ⟨⟨e, herror⟩, -⟩
      · exact absurd (hunchanged.symm.trans hupdated) (by simp)
      · exact absurd (hunchanged.symm.trans herror) (by simp)
  | unchanged serial hserial hcached _ _ _ _ =>
      obtain ⟨earlier, v, between, serial', device, hus, hhost, hsame, hplace⟩ :=
        Cached.run server netbox hfates u.host _ hcached
      have hmem : v ∈ us ++ [u] := by simp [hus]
      have hlast : u ∈ us ++ [u] := by simp
      obtain ⟨rfl, hsnapshot⟩ := snapshot_eq_of_contentHash hhash hlast hmem hhost
        (hplain v hmem) (hplain u hlast) hplace.usable hserial hsame
      subst hus
      obtain ⟨r, hmatch, rfl⟩ := hplace.matched
      refine ⟨earlier, v, between, serial', r, rfl, hhost, hsnapshot, hserial, hmatch,
        hplace.updated, ?_, hplace.kept, hplace.untouched⟩
      obtain ⟨start, hdone⟩ := hplace.reconciled
      refine ⟨start, ?_⟩
      unfold reconcileOn at hdone ⊢
      rwa [← hhost, ← reconcile_seen r.id v.host (congrArg Prod.snd hsnapshot)]

/-- The first device reports an interface that it did not have. -/
def sampleNext (fates : List (Fate PortError)) : UpsertStep where
  host := sampleHost
  observed := sampleInventory (Str.lit "S1") [(Str.lit "eth9", [Str.lit "192.0.2.9"])]
  fates := fates

/-- The snapshot of the claim again. -/
def sampleRepeat : UpsertStep := { sampleClaim with fates := [] }

/-- NetBox is down while a newer snapshot arrives. -/
def sampleOutage : List UpsertStep :=
  [sampleClaim, sampleNext (List.replicate 4 (.failed (.backend "connection refused")))]

theorem sampleOutage_collisionFree :
    CollisionFreeOn (hashedContents (sampleOutage ++ [sampleRepeat])) := by
  have hserial : usableSerial sampleObserved = some "S1" := by decide +kernel
  have hserial' : usableSerial (sampleNext []).observed = some "S1" := by decide +kernel
  have hne : sha256 (contentBytes "S1" sampleHost sampleObserved) ≠
      sha256 (contentBytes "S1" sampleHost (sampleNext []).observed) := by decide +kernel
  have hcases : ∀ bytes ∈ hashedContents (sampleOutage ++ [sampleRepeat]),
      bytes = contentBytes "S1" sampleHost sampleObserved ∨
      bytes = contentBytes "S1" sampleHost (sampleNext []).observed := by
    rintro bytes ⟨s, hs, serial, husable, rfl⟩
    simp only [sampleOutage, List.cons_append, List.nil_append, List.mem_cons, List.not_mem_nil,
      or_false] at hs
    rcases hs with rfl | rfl | rfl
    · obtain rfl := Option.some.inj (hserial.symm.trans husable)
      exact Or.inl rfl
    · obtain rfl := Option.some.inj (hserial'.symm.trans husable)
      exact Or.inr rfl
    · obtain rfl := Option.some.inj (hserial.symm.trans husable)
      exact Or.inl rfl
  intro a ha b hb hab
  rcases hcases a ha with rfl | rfl <;> rcases hcases b hb with rfl | rfl
  · rfl
  · exact absurd hab hne
  · exact absurd hab.symm hne
  · rfl

/-- The outage is tolerated, so that the repeated snapshot is in NetBox. -/
theorem unchanged_in_netbox_outage :
    let first : SinkState := ⟨∅, sampleNetbox⟩
    let now := first.run sampleServer sampleOutage
    (now.upsert sampleServer sampleRepeat).outcome = .ok .unchanged ∧
    ∃ earlier v between serial r,
      let left := (first.run sampleServer earlier).upsert sampleServer v
      sampleOutage = earlier ++ v :: between ∧ v.host = sampleHost ∧
      snapshot v.observed = snapshot sampleObserved ∧
      usableSerial sampleObserved = some serial ∧
      now.netbox.matchBySerial sampleServer serial = .one r ∧ left.outcome = .ok .updated ∧
      Reconciled sampleServer r.id sampleHost sampleObserved left.state.netbox ∧
      DeviceKept r.id left.state.netbox now.netbox ∧
      ∀ e ∈ left.state.callsOf sampleServer between, r.id ∉ e.1.touches e.2 := by
  have hunchanged : (((SinkState.mk ∅ sampleNetbox).run sampleServer sampleOutage).upsert
      sampleServer sampleRepeat).outcome = .ok .unchanged := by
    decide +kernel
  exact ⟨hunchanged, unchanged_in_netbox sampleServer sampleNetbox sampleOutage sampleRepeat
    sampleOutage_collisionFree (by decide +kernel) (by decide +kernel) hunchanged⟩

/-- A permanent error stops the newer snapshot after its interface was created; the
older one is then reported as unchanged, although the device has an interface that it
does not name. -/
theorem unchanged_after_failed_upsert :
    let first : SinkState := ⟨∅, sampleNetbox⟩
    let left := first.upsert sampleServer sampleClaim
    let failed := left.state.upsert sampleServer
      (sampleNext [.answered, .answered, .answered, .failed (.invalid "HTTP 400")])
    left.outcome = .ok .updated ∧ failed.outcome = .error (.invalid "HTTP 400") ∧
    (failed.state.upsert sampleServer sampleRepeat).outcome = .ok .unchanged ∧
    left.state.netbox.interfaces.get 4 = none ∧
    failed.state.netbox.interfaces.get 4 = some ⟨1, "eth9"⟩ ∧
    "eth9" ∉ sampleRepeat.observed.interfaces.map (fun i => i.name.text) := by
  decide +kernel

end Coordinator
end OpenSsmAgent
