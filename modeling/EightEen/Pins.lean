import EightEen.Js.Heap
import EightEen.Provisioned

/-!
# The Objects of the Manifest

`circuits.manifest.js` exports a frozen object, and `provision` reads its pins from there each
time: the array under `circuits` and the entries in it are objects of their own, which the freezing
does not reach. This module builds these objects as the literal does, says what `provision` reads
from a heap at some moment (`view`), and when the pins stand in it (`Stand`).

What the language has to offer is in the heap as well, with the functions that `provision` finds
along the prototypes. Where it would meet code of someone else (a getter, another `entries`), the
answer is taken from `Strangers`.

## Main results

* `stand_heapOf`: the pins stand when the module has been loaded.
* `Stand.next`, `Stand.id_entry`, `Stand.sha256_entry`: what `provision` reads while they stand.
-/

open Js

namespace EightEen

namespace Pins

open Provision (Source View)

/-! ### The objects -/

/-- `Object.prototype`. -/
def objectPrototype : Ref := 0

/-- `Array.prototype`. -/
def arrayPrototype : Ref := 1

/-- `String.prototype`. -/
def stringPrototype : Ref := 2

/-- `Array.prototype.entries`, when the program starts. -/
def entriesFunction : Ref := 3

/-- `Array.prototype.values`, when the program starts. -/
def valuesFunction : Ref := 4

/-- `String.prototype.slice`, when the program starts. -/
def sliceFunction : Ref := 5

/-- The default export of `circuits.manifest.js`. -/
def manifestRef : Ref := 6

/-- `manifest.circuits`. -/
def circuitsRef : Ref := 7

/-- `manifest.circuits[i]`. -/
def entryRef (i : ℕ) : Ref := 8 + i

/-- The object is one of the language. -/
def isBuiltIn (r : Ref) : Bool :=
  r < manifestRef

/-- A text, as the value of a property. -/
def text (s : String) : Slot :=
  .prim (.string s)

/-- The literal of an entry. -/
def entryObj (circuit : Circuit) : Obj :=
  .literal [(.name "id", text circuit.id), (.name "sha256", text circuit.sha256),
    (.name "bytes", .prim (.number circuit.bytes))] objectPrototype

/-- The literal of the array. -/
def circuitsObj (m : Manifest) : Obj :=
  .array ((List.range m.circuits.length).map fun i => .ref (entryRef i)) arrayPrototype

/-- `Object.freeze({ … })`. -/
def manifestObj (m : Manifest) : Obj :=
  (Obj.literal [(.name "commit", text m.commit), (.name "path", text m.path),
    (.name "circuits", .ref circuitsRef)] objectPrototype).freeze

/-- The objects when the module has been loaded. -/
def heapOf (m : Manifest) : Heap :=
  [⟨fun _ => none, none, true, none⟩,
    .literal [(.name "entries", .ref entriesFunction), (.iterator, .ref valuesFunction)]
      objectPrototype,
    .literal [(.name "slice", .ref sliceFunction)] objectPrototype,
    .literal [] objectPrototype, .literal [] objectPrototype, .literal [] objectPrototype,
    manifestObj m, circuitsObj m] ++ m.circuits.map entryObj

/-- The manifest that is shipped. -/
def shippedManifest : Manifest where
  commit := "d8ad8f65187c7c364a3c2181ad484bcab03f0ec2"
  path := "lib/circuits/mdoc/circuits"
  circuits := [
    ⟨"137e5a75ce72735a37c8a72da1a8a0a5df8d13365c2ae3d2c2bd6a0e7197c7c6", .finite 278354,
      "12050d8baaa37eb8225a3dcf5cb6139a0ccd4fa63a0e0ac2555ecb4810ada8a3"⟩,
    ⟨"3546d1e1a59142ded29a26d30ae4155d682b0f7f2b1a78a1cc63f94b211cbda0", .finite 223189,
      "0a496b8e5d922f2e0b4796840cfc7b8c7fd74c340776bd4d86fe1b5bf47e8a5a"⟩,
    ⟨"446ffab2fc5bfc71d748dec8ec1785f33b8f399b6ff50d1e0a4a9facd7e66c62", .finite 228176,
      "0d8b05e42d4a051ac2af522ded3b7a7d5e21fd41709f32e1ebf6e42d93316ea8"⟩,
    ⟨"5aebdaaafe17296a3ef3ca6c80c6e7505e09291897c39700410a365fb278e460", .finite 336033,
      "3a979b6e6a7df8e9404b2293d60c3277d3ba2a1846baa82e5fad75cbe3bbc76b"⟩,
    ⟨"6a5810683e62b6d7766ebd0d7ca72518a2b8325418142adcadb10d51dbbcd5ad", .finite 312363,
      "deb83076b7300d94f18e287e3fe4705823074979165ad08645c97a93c0363968"⟩,
    ⟨"7bcb1a2aee2fbd9907aeef97003fe68fbdaccca94bb048f6079877f7b2caee7c", .finite 213466,
      "507d4b380110af2a6b281a1d61252aacfef43df3432a5ddbab767ee0cf0ac045"⟩,
    ⟨"89288b9aa69d2120d211618fcca8345deb4f85d2e710c220cc9c059bbee4c91f", .finite 214041,
      "6dd890da2029cdca0ba197ec6a91138cf603607f5b99e5491fec2f4c7b3aaa9e"⟩,
    ⟨"8d079211715200ff06c5109639245502bfe94aa869908d31176aae4016182121", .finite 316385,
      "9016d173d8a579a104591b85826798bfbb03eafa7b376ad18c5344eab3a92769"⟩,
    ⟨"8ee4849ae1293ae6fe5f9082ce3e5e15c4f198f2998c682fa1b727237d6d252f", .finite 329262,
      "25fb28acd806a15b88538ee612f0da47bf29e6dcb0803f2c268c87f3f224b968"⟩,
    ⟨"b2211223b954b34a1081e3fbf71b8ea2de28efc888b4be510f532d6ba76c2010", .finite 306453,
      "e818e1cca16b6bc2e81963e673ae490bb42b3a61425d04c8e9b79d0294ec3917"⟩,
    ⟨"b4bb6f01b7043f4f51d8302a30b36e3d4d2d0efc3c24557ab9212ad524a9764e", .finite 308557,
      "0185b762cffb3f50fa587f9be30cd93e7db0cd27be3e85d5688c1733ac7be6b9"⟩,
    ⟨"c27195e03e22c9ab4efe9e1dabd2c33aa8b2429cc4e86410c6f12542d3c5e0a1", .finite 227985,
      "76049e66fabb8f76e0b9f712f295099b6a6be077329cc9e072df1496dc7970a5"⟩,
    ⟨"c70b5f44a1365c53847eb8948ad5b4fdc224251a2bc02d958c84c862823c49d6", .finite 315043,
      "dc6562eecfcfacca665ae4baa23cfa472074f1de17f0f6fe7376b676006b05ea"⟩,
    ⟨"c87721054ae14f3a54462ba975a3cf53e65ec648196528053da82067e103e64e", .finite 234693,
      "b78bf1052cb86b19dae56a4d74284adc92fa110a82d94381699499758b079cc2"⟩,
    ⟨"f51b7248b364462854d306326abded169854697d752d3bb6d9a9446ff7605ddb", .finite 223003,
      "ef6e523426acb584465cc3244979013d85f92b90ff72eee2ae339740a6351563"⟩,
    ⟨"f88a39e561ec0be02bb3dfe38fb609ad154e98decbbe632887d850fc612fea6f", .finite 216252,
      "ee57c47fe591b08135a13a9f2fd2a01ea3545b64d212d5c25898a709edf4d3b5"⟩,
    ⟨"fa5fadfb2a916d3b71144e9b412eff78f71fd6a6d4607eac10de66b195868b7a", .finite 234643,
      "13395cd75f61311347ed0099fbefc07277e96ce2fbaac1d6be0a6ccc04b44619"⟩]

/-! ### What is read -/

/-- What code of someone else answers: a method that has taken the place of one of the language, a
getter, and the conversion of an object that stands in the place of an id or a pin. -/
structure Strangers where
  next : Heap → ℕ → Completion (Option Slot)
  get : Heap → Slot → Key → Value
  shown : Heap → Ref → Value
  shown_ne_string : ∀ heap r s, shown heap r ≠ .string s
  source : Heap → Slot → Completion Source

/-- The object on which the properties of a value are looked up. -/
def base : Slot → Option Ref
  | .ref r => some r
  | .prim (.string _) => some stringPrototype
  | .prim _ => some objectPrototype

/-- What the property of a value holds, if it has one. -/
def contentAt (heap : Heap) (slot : Slot) (key : Key) : Option Content :=
  (heap.property (base slot) key).map Property.content

/-- The property of a value is this function. -/
def calls (heap : Heap) (slot : Slot) (key : Key) (function : Ref) : Bool :=
  match contentAt heap slot key with
  | some (.data (.ref r) _) => r = function
  | _ => false

section View

variable (strangers : Strangers) (heap : Heap)

/-- `circuit[key]`, for an entry. -/
def field (slot : Slot) (key : Key) : Value :=
  match contentAt heap slot key with
  | some (.data (.prim v) _) => v
  | some (.data (.ref r) _) => strangers.shown heap r
  | some .accessor => strangers.get heap slot key
  | none => .undefined

/-- The element of the array, of which `provision` reads the id at once. -/
def element (circuits : Ref) (i : ℕ) : Completion (Option Slot) :=
  match contentAt heap (.ref circuits) (.index i) with
  | some (.data (.prim .undefined) _) | none =>
      .error (.typeError "Cannot read properties of undefined (reading 'id')")
  | some (.data (.prim .null) _) =>
      .error (.typeError "Cannot read properties of null (reading 'id')")
  | some (.data slot _) => .ok (some slot)
  | some .accessor => strangers.next heap i

/-- The next element of the iteration over `manifest.circuits.entries()`, which ends behind the
last element that the array has then. -/
def nextEntry (i : ℕ) : Completion (Option Slot) :=
  match contentAt heap (.ref manifestRef) (.name "circuits") with
  | some (.data (.ref circuits) _) =>
      if calls heap (.ref circuits) (.name "entries") entriesFunction &&
          calls heap (.ref arrayPrototype) .iterator valuesFunction then
        match heap[circuits]?.bind Obj.length with
        | some n => if i < n then element strangers heap circuits i else .ok none
        | none => strangers.next heap i
      else strangers.next heap i
  | _ => strangers.next heap i

/-- The texts that `fetchCircuit` makes of an entry. -/
def sourceOf (slot : Slot) : Completion Source :=
  match contentAt heap (.ref manifestRef) (.name "commit"),
      contentAt heap (.ref manifestRef) (.name "path"), contentAt heap slot (.name "id") with
  | some (.data (.prim (.string commit)) _), some (.data (.prim (.string path)) _),
      some (.data (.prim (.string id)) _) =>
      if calls heap (text id) (.name "slice") sliceFunction then
        let m : Manifest := ⟨commit, path, []⟩
        .ok
          { url := m.sourceUrl id
            label := "circuit " ++ String.ofList (id.toList.take 12)
            origin := "at upstream " ++ String.ofList (commit.toList.take 8) }
      else strangers.source heap slot
  | _, _, _ => strangers.source heap slot

/-- What the manifest reads as. -/
def view : View Slot where
  next := nextEntry strangers heap
  id slot := field strangers heap slot (.name "id")
  bytes slot := field strangers heap slot (.name "bytes")
  sha256 slot := field strangers heap slot (.name "sha256")
  source := sourceOf strangers heap

end View

/-! ### The pins stand -/

/-- The property of a value holds this. -/
def Holds (heap : Heap) (slot : Slot) (key : Key) (value : Slot) : Prop :=
  ∃ writable, contentAt heap slot key = some (.data value writable)

/-- An element that is in none of the places of the pins does no harm: it is one of the entries
again, or its id is no pinned one, and not answered by a getter. -/
def Harmless (m : Manifest) (heap : Heap) (slot : Slot) : Prop :=
  (∃ i < m.circuits.length, slot = .ref (entryRef i)) ∨
    (contentAt heap slot (.name "id") ≠ some .accessor ∧
      ∀ circuit ∈ m.circuits, ¬ Holds heap slot (.name "id") (text circuit.id))

/-- **The pins stand**: the iteration is that of the language, the entries are in their places,
each of them has the id and the digest that it was shipped with, and any element behind them does
no harm. -/
structure Stand (m : Manifest) (heap : Heap) : Prop where
  entries : calls heap (.ref circuitsRef) (.name "entries") entriesFunction = true
  iterator : calls heap (.ref arrayPrototype) .iterator valuesFunction = true
  length : ∃ n, heap[circuitsRef]?.bind Obj.length = some n ∧ m.circuits.length ≤ n
  places : ∀ i < m.circuits.length,
    Holds heap (.ref circuitsRef) (.index i) (.ref (entryRef i))
  ids : ∀ i circuit, m.circuits[i]? = some circuit →
    Holds heap (.ref (entryRef i)) (.name "id") (text circuit.id)
  digests : ∀ i circuit, m.circuits[i]? = some circuit →
    Holds heap (.ref (entryRef i)) (.name "sha256") (text circuit.sha256)
  getters : ∀ n i, heap[circuitsRef]?.bind Obj.length = some n → m.circuits.length ≤ i → i < n →
    contentAt heap (.ref circuitsRef) (.index i) ≠ some .accessor
  others : ∀ n i slot, heap[circuitsRef]?.bind Obj.length = some n → m.circuits.length ≤ i →
    i < n → Holds heap (.ref circuitsRef) (.index i) slot → Harmless m heap slot

variable {m : Manifest} {heap : Heap} {strangers : Strangers}

/-- An own property is the one that is read. -/
theorem contentAt_of_own {r : Ref} {obj : Obj} {key : Key} {property : Property}
    (h : heap[r]? = some obj) (hown : obj.own key = some property) :
    contentAt heap (.ref r) key = some property.content := by
  rw [contentAt, base, Heap.property_of_own h hown]
  rfl

/-- A property holds one value. -/
theorem Holds.unique {slot value value' : Slot} {key : Key} (h : Holds heap slot key value)
    (h' : Holds heap slot key value') : value = value' := by
  obtain ⟨w, hw⟩ := h
  obtain ⟨w', hw'⟩ := h'
  have heq := Option.some.inj (hw.symm.trans hw')
  rw [Content.data.injEq] at heq
  exact heq.1

/-- A text that is read is the text that is there. -/
theorem Holds.field {slot : Slot} {key : Key} {s : String} (h : Holds heap slot key (text s)) :
    field strangers heap slot key = .string s := by
  obtain ⟨w, hw⟩ := h
  rw [Pins.field, hw]
  rfl

/-- Where no getter answers, a text that is read of a property is what the property holds. -/
theorem holds_of_field {slot : Slot} {key : Key} {s : String}
    (hgetter : contentAt heap slot key ≠ some .accessor)
    (h : field strangers heap slot key = .string s) : Holds heap slot key (text s) := by
  rw [field] at h
  split at h
  · next v w hv =>
      subst h
      exact ⟨w, hv⟩
  · exact absurd h (strangers.shown_ne_string _ _ _)
  · next hv => exact absurd hv hgetter
  · cases h

/-- No two places have one id. -/
theorem index_unique (hm : m.WellFormed) {i j : ℕ} {circuit circuit' : Circuit}
    (hi : m.circuits[i]? = some circuit) (hj : m.circuits[j]? = some circuit')
    (hid : circuit.id = circuit'.id) : i = j := by
  have hlt : i < (m.circuits.map Circuit.id).length := by
    rw [List.length_map]
    exact (List.getElem?_eq_some_iff.mp hi).1
  refine (List.getElem?_inj hlt hm.distinct).mp ?_
  rw [List.getElem?_map, List.getElem?_map, hi, hj, Option.map_some, Option.map_some, hid]

/-- The export as it was shipped holds the array of circuits, and not to be written to. -/
theorem circuits_of_manifest (h : heap[manifestRef]? = some (manifestObj m)) :
    contentAt heap (.ref manifestRef) (.name "circuits") =
      some (.data (.ref circuitsRef) false) := by
  have hown : (manifestObj m).own (.name "circuits") =
      some ⟨.data (.ref circuitsRef) false, false⟩ := rfl
  exact contentAt_of_own h hown

/-- An element that is no getter's is the one that is there. -/
theorem element_eq_ok {circuits : Ref} {i : ℕ} {next : Option Slot}
    (hgetter : contentAt heap (.ref circuits) (.index i) ≠ some .accessor)
    (h : element strangers heap circuits i = .ok next) :
    ∃ slot, next = some slot ∧ Holds heap (.ref circuits) (.index i) slot := by
  rw [element] at h
  split at h
  · cases h
  · cases h
  · cases h
  · next slot w _ _ hslot =>
      cases h
      exact ⟨slot, rfl, w, hslot⟩
  · next hslot => exact absurd hslot hgetter

namespace Stand

/-- The iteration goes over the array. -/
theorem nextEntry_eq (h : Stand m heap) (hm : heap[manifestRef]? = some (manifestObj m)) {n : ℕ}
    (hn : heap[circuitsRef]?.bind Obj.length = some n) (i : ℕ) :
    nextEntry strangers heap i =
      if i < n then element strangers heap circuitsRef i else .ok none := by
  rw [nextEntry, circuits_of_manifest hm]
  simp only [h.entries, h.iterator, Bool.and_self, if_true, hn]

/-- In the places of the pins, it gives the entries. -/
theorem next_place (strangers : Strangers) (h : Stand m heap)
    (hm : heap[manifestRef]? = some (manifestObj m)) {i : ℕ} (hi : i < m.circuits.length) :
    nextEntry strangers heap i = .ok (some (.ref (entryRef i))) := by
  obtain ⟨n, hn, hlen⟩ := h.length
  obtain ⟨w, hw⟩ := h.places i hi
  rw [h.nextEntry_eq hm hn, if_pos (by omega), element, hw]

/-- Behind them, it gives what is there. -/
theorem next_behind (h : Stand m heap) (hm : heap[manifestRef]? = some (manifestObj m)) {i : ℕ}
    (hi : m.circuits.length ≤ i) {slot : Slot}
    (hnext : nextEntry strangers heap i = .ok (some slot)) : Harmless m heap slot := by
  obtain ⟨n, hn, -⟩ := h.length
  rw [h.nextEntry_eq hm hn] at hnext
  split at hnext
  · next hlt =>
      obtain ⟨slot', heq, hslot⟩ := element_eq_ok (h.getters n i hn hi hlt) hnext
      obtain rfl := Option.some.inj heq
      exact h.others n i slot hn hi hlt hslot
  · cases hnext

/-- It ends behind them. -/
theorem next_end (h : Stand m heap) (hm : heap[manifestRef]? = some (manifestObj m)) {i : ℕ}
    (hnext : nextEntry strangers heap i = .ok none) : m.circuits.length ≤ i := by
  by_contra hlt
  rw [h.next_place strangers hm (by omega)] at hnext
  cases hnext

/-- While the pins stand, the id of an entry reads as it was shipped. -/
theorem id_entry (h : Stand m heap) {i : ℕ} {circuit : Circuit}
    (hi : m.circuits[i]? = some circuit) :
    (view strangers heap).id (.ref (entryRef i)) = .string circuit.id :=
  (h.ids i circuit hi).field

/-- While the pins stand, the digest of an entry reads as it was shipped. -/
theorem sha256_entry (h : Stand m heap) {i : ℕ} {circuit : Circuit}
    (hi : m.circuits[i]? = some circuit) :
    (view strangers heap).sha256 (.ref (entryRef i)) = .string circuit.sha256 :=
  (h.digests i circuit hi).field

/-- **What has the id of a pin is the entry of this pin.** -/
theorem ref_of_id (h : Stand m heap) (hwf : m.WellFormed)
    (hm : heap[manifestRef]? = some (manifestObj m)) {i j : ℕ} {slot : Slot} {circuit : Circuit}
    (hnext : (view strangers heap).next i = .ok (some slot))
    (hj : m.circuits[j]? = some circuit)
    (hid : (view strangers heap).id slot = .string circuit.id) : slot = .ref (entryRef j) := by
  have hentry : ∀ k < m.circuits.length, slot = .ref (entryRef k) → slot = .ref (entryRef j) := by
    rintro k hk rfl
    have hget := List.getElem?_eq_getElem hk
    have hid' := hid
    rw [h.id_entry hget, Value.string.injEq] at hid'
    rw [index_unique hwf hget hj hid']
  by_cases hi : i < m.circuits.length
  · have hplace := h.next_place strangers hm hi
    obtain rfl := Option.some.inj (Except.ok.inj (hplace.symm.trans hnext))
    exact hentry i hi rfl
  · rcases h.next_behind hm (by omega) hnext with ⟨k, hk, hslot⟩ | ⟨hgetter, hother⟩
    · exact hentry k hk hslot
    · exact absurd (holds_of_field hgetter hid) (hother circuit (List.mem_of_getElem? hj))

end Stand

/-! ### When the module has been loaded -/

/-- The heap at the start has each entry in its place. -/
theorem getElem?_entryRef (m : Manifest) (i : ℕ) :
    (heapOf m)[entryRef i]? = m.circuits[i]?.map entryObj := by
  rw [heapOf, entryRef, List.getElem?_append_right (by simp), List.getElem?_map]
  simp

/-- The heap at the start has the export and the array. -/
theorem one_lt_length_heapOf (m : Manifest) : 1 < (heapOf m).length := by
  simp [heapOf]

/-- The export of the heap at the start is the one that was shipped. -/
theorem manifest_heapOf (m : Manifest) : (heapOf m)[manifestRef]? = some (manifestObj m) := rfl

/-- So is its array of circuits. -/
theorem circuits_heapOf (m : Manifest) : (heapOf m)[circuitsRef]? = some (circuitsObj m) := rfl

/-- The array has as many elements as there are circuits. -/
theorem length_heapOf (m : Manifest) :
    (heapOf m)[circuitsRef]?.bind Obj.length = some m.circuits.length := by
  rw [circuits_heapOf]
  simp [circuitsObj, Obj.array]

/-- **The pins stand when the module has been loaded.** -/
theorem stand_heapOf (m : Manifest) : Stand m (heapOf m) where
  entries := by
    have hproperty : (heapOf m).property (some circuitsRef) (.name "entries") =
        some ⟨.data (.ref entriesFunction) true, true⟩ :=
      Heap.property_of_proto (one_lt_length_heapOf m) (circuits_heapOf m) rfl rfl
        (s := arrayPrototype) rfl rfl
    rw [calls, contentAt, base, hproperty]
    rfl
  iterator := by
    have hproperty : (heapOf m).property (some arrayPrototype) .iterator =
        some ⟨.data (.ref valuesFunction) true, true⟩ :=
      Heap.property_of_own (r := arrayPrototype) rfl rfl
    rw [calls, contentAt, base, hproperty]
    rfl
  length := ⟨_, length_heapOf m, le_rfl⟩
  places i hi := by
    have hown : (circuitsObj m).own (.index i) = some ⟨.data (.ref (entryRef i)) true, true⟩ := by
      simp [circuitsObj, Obj.array, hi]
    exact ⟨true, contentAt_of_own (circuits_heapOf m) hown⟩
  ids i circuit hi := by
    have hobj : (heapOf m)[entryRef i]? = some (entryObj circuit) := by
      rw [getElem?_entryRef, hi, Option.map_some]
    have hown : (entryObj circuit).own (.name "id") =
        some ⟨.data (text circuit.id) true, true⟩ := rfl
    exact ⟨true, contentAt_of_own hobj hown⟩
  digests i circuit hi := by
    have hobj : (heapOf m)[entryRef i]? = some (entryObj circuit) := by
      rw [getElem?_entryRef, hi, Option.map_some]
    have hown : (entryObj circuit).own (.name "sha256") =
        some ⟨.data (text circuit.sha256) true, true⟩ := rfl
    exact ⟨true, contentAt_of_own hobj hown⟩
  getters n i hn hi hlt := by
    obtain rfl := Option.some.inj ((length_heapOf m).symm.trans hn)
    omega
  others n i slot hn hi hlt := by
    obtain rfl := Option.some.inj ((length_heapOf m).symm.trans hn)
    omega

/-- The test of an id, on the characters of a literal. -/
theorem isCircuitId_ofList (chars : List Char) :
    Provision.isCircuitId (String.ofList chars) =
      (decide (chars.length = 64) && chars.all isLowerHex) := by
  rw [Provision.isCircuitId, String.toList_ofList]

/-- The manifest that is shipped is well formed: its circuits have distinct ids of the right
shape. -/
theorem shippedManifest_wellFormed : shippedManifest.WellFormed where
  distinct := by decide +kernel
  ids := by
    simp only [shippedManifest, List.forall_mem_cons, List.not_mem_nil, false_imp_iff,
      implies_true, and_true]
    and_intros <;> exact (isCircuitId_ofList _).trans (by decide +kernel)

end Pins

end EightEen
