import OpenSsmAgent.Coordinator.NetboxDedup

/-!
# What a content hash identifies

The content hash of {lit}`osa-coordinator/src/netbox.rs` covers the serial, the host and
the interfaces: each name behind a byte that no text contains, and each address behind a
zero byte, which a text may contain.  So the hash tells two snapshots apart unless they
spell the same text and differ in where it is cut into names and addresses.

Main results:

- Theorem {lit}`contentBytes_eq_iff`: which snapshots have the same hashed bytes.
- Theorem {lit}`hash_identifies_iff`: exactly the ambiguous pairs of snapshots are
  confused, by the hash and by an upsert.
- Theorem {lit}`zero_in_name_unchanged`: an upsert of a snapshot that was never synced
  answers that nothing changed.
-/

open Framing RemoteCalls Separated Sha256

namespace OpenSsmAgent
namespace Coordinator

open Domain Wire Proto

/-! ## The text of an interface -/

/-- The text of an interface in the hashed bytes: its name, and each address behind a zero
character. -/
def spelt (iface : InventoryInterface) : List Char :=
  iface.name.text.toList ++ behind (Char.ofNat 0) (iface.ipAddresses.map fun ip => ip.text.toList)

/-- Where that text is cut: the lengths of the name and of the addresses. -/
def cuts (iface : InventoryInterface) : List Nat :=
  iface.name.text.toList.length :: iface.ipAddresses.map fun ip => ip.text.toList.length

/-- The two snapshots spell the same text under one serial, but cut it differently. -/
structure Ambiguous (serial serial' : String) (observed observed' : Inventory) : Prop where
  serial_eq : serial = serial'
  spelt_eq : observed.interfaces.map spelt = observed'.interfaces.map spelt
  cuts_ne : observed.interfaces.map cuts ≠ observed'.interfaces.map cuts

theorem interfaceRecord_eq (iface : InventoryInterface) :
    interfaceRecord iface = utf8 (String.ofList (spelt iface)) := by
  have hzero : String.utf8EncodeChar (Char.ofNat 0) = [0x00] := by decide
  rw [utf8_eq_flatMap, String.toList_ofList, spelt, List.flatMap_append, interfaceRecord,
    utf8_eq_flatMap]
  congr 1
  simp [behind, List.flatMap_map, List.flatMap_assoc, hzero, utf8_eq_flatMap]

theorem interfaceRecord_eq_iff {a b : InventoryInterface} :
    interfaceRecord a = interfaceRecord b ↔ spelt a = spelt b := by
  rw [interfaceRecord_eq, interfaceRecord_eq]
  refine ⟨fun h => ?_, fun h => by rw [h]⟩
  exact String.ofList_injective (utf8_injective h)

/-- The text and its cuts determine the name and the addresses. -/
theorem seen_eq_iff {a b : InventoryInterface} :
    interfaceSeen a = interfaceSeen b ↔ spelt a = spelt b ∧ cuts a = cuts b := by
  constructor
  · intro h
    obtain ⟨hname, hips⟩ := Prod.mk.inj h
    simp [spelt, cuts, hname, hips]
  · rintro ⟨hspelt, hcuts⟩
    obtain ⟨hlength, hlengths⟩ := List.cons.inj hcuts
    obtain ⟨hname, hips⟩ := append_behind_inj_of_length hlength
      (by simpa [Function.comp_def] using hlengths) hspelt
    have hinjective : Function.Injective fun ip : Str => ip.text.toList :=
      fun ip ip' heq => Str.ext_text (String.toList_injective heq)
    exact Prod.ext (Str.ext_text (String.toList_injective hname)) (hinjective.list_map hips)

/-- A map is determined by two others where it is so at every element. -/
theorem map_eq_iff {A B C D : Type} {f : A → B} {g : A → C} {k : A → D}
    (h : ∀ a b, f a = f b ↔ g a = g b ∧ k a = k b) (xs ys : List A) :
    xs.map f = ys.map f ↔ xs.map g = ys.map g ∧ xs.map k = ys.map k := by
  induction xs generalizing ys with
  | nil => cases ys <;> simp
  | cons x xs ih =>
      cases ys with
      | nil => simp
      | cons y ys =>
          simp only [List.map_cons, List.cons.injEq, h, ih]
          constructor
          · rintro ⟨⟨hg, hk⟩, hgs, hks⟩
            exact ⟨⟨hg, hgs⟩, hk, hks⟩
          · rintro ⟨⟨hg, hgs⟩, hk, hks⟩
            exact ⟨⟨hg, hk⟩, hgs, hks⟩

/-! ## The hash -/

section Hash

variable {serial serial' : String} {host : HostId} {observed observed' : Inventory}

/-- The hashed bytes of one host determine the serial and the texts, and nothing more. -/
theorem contentBytes_eq_iff :
    contentBytes serial host observed = contentBytes serial' host observed' ↔
      serial = serial' ∧ observed.interfaces.map spelt = observed'.interfaces.map spelt := by
  have hrecords : observed.interfaces.map interfaceRecord =
      observed'.interfaces.map interfaceRecord ↔
      observed.interfaces.map spelt = observed'.interfaces.map spelt := by
    have hiff := map_eq_iff (f := interfaceRecord) (g := spelt) (k := spelt)
      (fun a b => by rw [interfaceRecord_eq_iff, and_self])
    simpa using hiff observed.interfaces observed'.interfaces
  rw [← hrecords, contentBytes_eq, contentBytes_eq]
  constructor
  · intro h
    obtain ⟨hserial, hlist⟩ := eq_of_marked (by decide) (ff_notMem_utf8 serial)
      (ff_notMem_utf8 serial') (behind_head _) (behind_head _) h
    have hno : ∀ ifaces : List InventoryInterface,
        ∀ item ∈ ifaces.map interfaceRecord, 0xff ∉ item := by
      intro ifaces item hitem
      obtain ⟨iface, -, rfl⟩ := List.mem_map.mp hitem
      exact ff_notMem_record iface
    exact ⟨utf8_injective hserial, behind_inj (hno _) (hno _) hlist⟩
  · rintro ⟨rfl, hlist⟩
    rw [hlist]

/-- Without zero characters nothing is ambiguous. -/
theorem not_ambiguous_of_nulFree (hplain : NulFree observed) (hplain' : NulFree observed') :
    ¬ Ambiguous serial serial' observed observed' := by
  intro h
  have hbytes : contentBytes serial sampleHost observed =
      contentBytes serial' sampleHost observed' :=
    contentBytes_eq_iff.mpr ⟨h.serial_eq, h.spelt_eq⟩
  obtain ⟨-, hseen⟩ := contentBytes_inj hplain hplain' hbytes
  exact h.cuts_ne ((map_eq_iff (fun _ _ => seen_eq_iff) _ _).mp hseen).2

/-- An upsert answers that nothing changed exactly when the cached hash is the one of the
snapshot. -/
theorem upsert_unchanged_iff {server : NetboxServer} {synced : Synced} {nb : Netbox}
    {hash : String} (fates : List (Fate PortError)) (hcached : synced.lookup host = some hash)
    (hserial : usableSerial observed = some serial) :
    (upsert server synced host observed ⟨nb, fates, []⟩).1 = .ok .unchanged ↔
      hash = contentHash serial host observed := by
  constructor
  · intro hout
    have hcase : UpsertCase server synced host observed nb
        (upsert server synced host observed ⟨nb, fates, []⟩) := upsert_cases fates
    cases hcase with
    | quiet _ hne _ _ _ => exact absurd hout hne
    | unchanged serial'' hserial'' hlookup _ _ _ _ =>
        obtain rfl := Option.some.inj (hserial.symm.trans hserial'')
        exact Option.some.inj (hcached.symm.trans hlookup)
    | wrote _ _ _ _ _ _ _ hout' =>
        rcases hout' with ⟨hupdated, -⟩ | ⟨⟨e, herror⟩, -⟩
        · rw [hupdated] at hout
          cases hout
        · rw [herror] at hout
          cases hout
  · rintro rfl
    simp only [upsert, hserial, hcached, if_true]

/-- Assuming SHA-256 has no collision on the two inputs: the content hash tells two
snapshots of a host apart, and an upsert does not answer that nothing changed for one when
the other was synced, exactly if the two are not ambiguous; and without zero characters
they are not. -/
theorem hash_identifies_iff (host : HostId) (serial serial' : String)
    (observed observed' : Inventory)
    (hhash : CollisionFreeOn
      {contentBytes serial host observed, contentBytes serial' host observed'}) :
    ((contentHash serial host observed = contentHash serial' host observed' →
        serial = serial' ∧
          observed.interfaces.map interfaceSeen = observed'.interfaces.map interfaceSeen) ↔
      ¬ Ambiguous serial serial' observed observed') ∧
    (∀ server synced nb fates, synced.lookup host = some (contentHash serial host observed) →
      usableSerial observed' = some serial' →
      (((upsert server synced host observed' ⟨nb, fates, []⟩).1 = .ok .unchanged →
          serial = serial' ∧
            observed.interfaces.map interfaceSeen = observed'.interfaces.map interfaceSeen) ↔
        ¬ Ambiguous serial serial' observed observed')) ∧
    (NulFree observed → NulFree observed' → ¬ Ambiguous serial serial' observed observed') := by
  have hsame : contentHash serial host observed = contentHash serial' host observed' ↔
      serial = serial' ∧ observed.interfaces.map spelt = observed'.interfaces.map spelt := by
    have hbytes : contentHash serial host observed = contentHash serial' host observed' ↔
        contentBytes serial host observed = contentBytes serial' host observed' := by
      refine ⟨fun h => sha256Hex_injOn hhash (by simp) (by simp) h, ?_⟩
      intro h
      rw [contentHash, contentHash, h]
    exact hbytes.trans contentBytes_eq_iff
  have hseen : observed.interfaces.map interfaceSeen = observed'.interfaces.map interfaceSeen ↔
      observed.interfaces.map spelt = observed'.interfaces.map spelt ∧
        observed.interfaces.map cuts = observed'.interfaces.map cuts :=
    map_eq_iff (fun _ _ => seen_eq_iff) _ _
  have hpair : (contentHash serial host observed = contentHash serial' host observed' →
      serial = serial' ∧
        observed.interfaces.map interfaceSeen = observed'.interfaces.map interfaceSeen) ↔
      ¬ Ambiguous serial serial' observed observed' := by
    rw [hsame, hseen]
    constructor
    · intro h hambiguous
      exact hambiguous.cuts_ne (h ⟨hambiguous.serial_eq, hambiguous.spelt_eq⟩).2.2
    · rintro hnot ⟨hserial, hspelt⟩
      refine ⟨hserial, hspelt, ?_⟩
      by_contra hcuts
      exact hnot ⟨hserial, hspelt, hcuts⟩
  refine ⟨hpair, ?_, not_ambiguous_of_nulFree⟩
  intro server synced nb fates hcached hserial'
  rw [upsert_unchanged_iff fates hcached hserial', hpair]

/-- An interface with an address, and one whose name spells both. -/
def sampleWithAddress : Inventory :=
  sampleInventory (Str.lit "S1") [(Str.lit "a", [Str.lit "192.0.2.5"])]

def sampleZeroName : Inventory :=
  sampleInventory (Str.lit "S1") [(Str.lit "a\x00192.0.2.5", [])]

/-- After the first snapshot was synced, an upsert of the second answers that nothing
changed. -/
theorem zero_in_name_unchanged :
    contentHash "S1" sampleHost sampleWithAddress = contentHash "S1" sampleHost sampleZeroName ∧
    sampleWithAddress.interfaces.map interfaceSeen ≠ sampleZeroName.interfaces.map interfaceSeen ∧
    (upsert sampleServer (Table.put ∅ sampleHost (contentHash "S1" sampleHost sampleWithAddress))
      sampleHost sampleZeroName ⟨sampleNetbox, [], []⟩).1 = .ok .unchanged := by
  have hbytes : contentBytes "S1" sampleHost sampleWithAddress =
      contentBytes "S1" sampleHost sampleZeroName := by
    decide +kernel
  have hhash : contentHash "S1" sampleHost sampleWithAddress =
      contentHash "S1" sampleHost sampleZeroName := by
    rw [contentHash, contentHash, hbytes]
  have hserial : usableSerial sampleZeroName = some "S1" := by
    decide +kernel
  exact ⟨hhash, by decide +kernel, (upsert_unchanged_iff [] (by simp) hserial).mpr hhash⟩

/-- Two plain snapshots are told apart. -/
theorem hash_identifies_plain :
    contentHash "S1" sampleHost sampleWithAddress ≠
      contentHash "S1" sampleHost (sampleInventory (Str.lit "S1") [(Str.lit "a", [])]) := by
  have hcollision : CollisionFreeOn {contentBytes "S1" sampleHost sampleWithAddress,
      contentBytes "S1" sampleHost (sampleInventory (Str.lit "S1") [(Str.lit "a", [])])} := by
    exact Set.injOn_pair.mpr fun hsame => absurd hsame (by decide +kernel)
  obtain ⟨hpair, -, hplain⟩ := hash_identifies_iff sampleHost "S1" "S1" sampleWithAddress
    (sampleInventory (Str.lit "S1") [(Str.lit "a", [])]) hcollision
  intro hsame
  have hseen := (hpair.mpr (hplain (by decide +kernel) (by decide +kernel)) hsame).2
  exact absurd hseen (by decide +kernel)

end Hash

end Coordinator
end OpenSsmAgent
