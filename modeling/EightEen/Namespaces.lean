import EightEen.Evidence
import EightEen.Js.Keys
import Mathlib.Logic.Relation

/-!
# Namespaces

`Claims` of a reply maps namespaces to lists of items, and credentials of different profiles put
the same claim under different names. `findClaim` looks through all of them in the order in
which the engine shows them, and stops at the first item with the identifier. `Rearranges` is one
change to the object that leaves the items naming the claim alone, up to their places: a new
order, new names, an item moved, an item or a namespace that says nothing about the claim added.
The verdict does not see any number of such changes, in either direction.

## Main results

* `Rearranges.named`: a change leaves the items that name the claim the same, up to order.
* `classify_rearranged`: the verdict is the same on both sides of any number of changes.
-/

open Js

namespace EightEen

/-- A `Claims` object: its namespaces in the order in which they were added, with distinct
names. -/
structure Claims where
  entries : List (String × Value)
  distinct : (entries.map (·.1)).Nodup

/-- The object as the program meets it. -/
def Claims.toValue (claims : Claims) : Value :=
  .object (ownOrder claims.entries)

/-- The item names the claim. -/
def Names (id item : Value) : Prop :=
  (item.get "ElementIdentifier").strictEq id = true

instance (id : Value) : DecidablePred (Names id) := fun _ =>
  inferInstanceAs (Decidable (_ = true))

/-- The items of all namespaces. -/
def entryItems (entries : List (String × Value)) : List Value :=
  entries.flatMap fun entry => entry.2.items

/-- The items that name the claim, in the order of the namespaces. -/
def Claims.named (id : Value) (claims : Claims) : List Value :=
  (entryItems claims.entries).filter (Names id)

/-- One change to a `Claims` object. The namespaces are put in another order or under other
names; the items of one are put in another order; an item moves from one namespace to another;
an item that does not name the claim (`null`, for one) is added; a namespace is added that is
not an array, or holds no item that names the claim. -/
inductive Rearranges (id : Value) : Claims → Claims → Prop
  | permute {c c' : Claims} (h : c.entries.Perm c'.entries) : Rearranges id c c'
  | rename {c c' : Claims} (h : c.entries.map (·.2) = c'.entries.map (·.2)) : Rearranges id c c'
  | shuffle {c c' : Claims} {before after : List (String × Value)} {name : String}
      {items items' : List Value} (hitems : items.Perm items')
      (h : c.entries = before ++ (name, .array items) :: after)
      (h' : c'.entries = before ++ (name, .array items') :: after) : Rearranges id c c'
  | move {c c' : Claims} {before between after : List (String × Value)} {source target : String}
      {front back front' back' : List Value} {item : Value}
      (h : c.entries = before ++ (source, .array (front ++ item :: back)) :: between ++
        (target, .array (front' ++ back')) :: after)
      (h' : c'.entries = before ++ (source, .array (front ++ back)) :: between ++
        (target, .array (front' ++ item :: back')) :: after) : Rearranges id c c'
  | addItem {c c' : Claims} {before after : List (String × Value)} {name : String}
      {front back : List Value} {item : Value} (hitem : ¬Names id item)
      (h : c.entries = before ++ (name, .array (front ++ back)) :: after)
      (h' : c'.entries = before ++ (name, .array (front ++ item :: back)) :: after) :
      Rearranges id c c'
  | addNamespace {c c' : Claims} {before after : List (String × Value)} {name : String}
      {value : Value} (hvalue : ∀ item ∈ value.items, ¬Names id item)
      (h : c.entries = before ++ after) (h' : c'.entries = before ++ (name, value) :: after) :
      Rearranges id c c'

/-! ### The items that name the claim -/

/-- The items of namespaces behind others are behind theirs. -/
@[simp] theorem entryItems_append (xs ys : List (String × Value)) :
    entryItems (xs ++ ys) = entryItems xs ++ entryItems ys :=
  List.flatMap_append

/-- The items of the first namespace come first. -/
@[simp] theorem entryItems_cons (name : String) (value : Value) (ys : List (String × Value)) :
    entryItems ((name, value) :: ys) = value.items ++ entryItems ys :=
  List.flatMap_cons

/-- The items of an array are its elements. -/
@[simp] theorem items_array (items : List Value) : (Value.array items).items = items :=
  rfl

/-- `null` names nothing, since what a claim is called is never `undefined`. -/
theorem not_names_null (opts : ClassifyOptions) : ¬Names opts.claim .null := by
  have hclaim : opts.claim ≠ .undefined := by
    rw [ClassifyOptions.claim, Value.orElse]
    split
    · simp
    · next h => intro hundef; rw [hundef] at h; exact h rfl
  intro h
  change Value.undefined.strictEq opts.claim = true at h
  cases hc : opts.claim with
  | undefined => exact hclaim hc
  | _ => rw [hc] at h; exact absurd h (by simp [Value.strictEq])

/-- **A change leaves the items that name the claim the same**, up to order. -/
theorem Rearranges.named {id : Value} {c c' : Claims} (h : Rearranges id c c') :
    (c.named id).Perm (c'.named id) := by
  cases h with
  | permute h => exact (h.flatMap_right _).filter _
  | rename h =>
      have hitems : ∀ c : Claims, entryItems c.entries =
          (c.entries.map (·.2)).flatMap Value.items := fun c => (List.flatMap_map ..).symm
      rw [Claims.named, Claims.named, hitems, hitems, h]
  | shuffle hitems h h' =>
      rw [Claims.named, Claims.named, h, h']
      refine List.Perm.filter _ ?_
      simp only [entryItems_append, entryItems_cons, items_array]
      exact (hitems.append_right _).append_left _
  | @move before between after source target front back front' back' item h h' =>
      rw [Claims.named, Claims.named, h, h']
      refine List.Perm.filter _ ?_
      simp only [entryItems_append, entryItems_cons, items_array, List.append_assoc,
        List.cons_append]
      refine List.Perm.append_left _ (List.Perm.append_left _ ?_)
      have hmid :
          (back ++ (entryItems between ++ front') ++ item :: (back' ++ entryItems after)).Perm
          (item :: (back ++ (entryItems between ++ front') ++ (back' ++ entryItems after))) :=
        List.perm_middle
      simpa only [List.append_assoc] using hmid.symm
  | addItem hitem h h' =>
      rw [Claims.named, Claims.named, h, h']
      simp [hitem]
  | @addNamespace before after name value hvalue h h' =>
      have hnone : value.items.filter (fun item => decide (Names id item)) = [] :=
        List.filter_eq_nil_iff.mpr fun item hitem => by simpa using hvalue item hitem
      rw [Claims.named, Claims.named, h, h']
      simp [hnone]

/-- The items that the search goes through are those of the object, in another order. -/
theorem claimItems_toValue_perm (claims : Claims) :
    (claimItems claims.toValue).Perm (entryItems claims.entries) := by
  have hvalues : claimItems claims.toValue = entryItems (ownOrder claims.entries) :=
    List.flatMap_map ..
  rw [hvalues]
  exact (ownOrder_perm claims.entries).flatMap_right _

/-- All items that name the claim carry the same value. -/
def Claims.Agrees (id : Value) (claims : Claims) : Prop :=
  ∀ item ∈ claims.named id, ∀ other ∈ claims.named id,
    item.get "ElementValue" = other.get "ElementValue"

/-- **What the search finds** is the value of any item that names the claim. -/
theorem findClaim_toValue {id : Value} {claims : Claims} (h : claims.Agrees id) :
    findClaim claims.toValue id =
      (((claims.named id).head?).map (·.get "ElementValue")).getD .undefined := by
  have hperm := (claimItems_toValue_perm claims).filter (fun item => decide (Names id item))
  have hfirst : firstItem claims.toValue id =
      ((claimItems claims.toValue).filter fun item => decide (Names id item)).head? := by
    rw [List.head?_filter, firstItem]
    congr 1
    funext item
    exact Bool.eq_iff_iff.mpr decide_eq_true_iff.symm
  rw [findClaim_eq, hfirst]
  cases hseen : (claimItems claims.toValue).filter fun item => decide (Names id item) with
  | nil =>
      rw [hseen] at hperm
      rw [Claims.named, hperm.nil_eq.symm]
  | cons item items =>
      rw [hseen] at hperm
      have hitem : item ∈ claims.named id := hperm.subset List.mem_cons_self
      cases hnamed : claims.named id with
      | nil => rw [hnamed] at hitem; cases hitem
      | cons other others =>
          have hother : other ∈ claims.named id := hnamed ▸ List.mem_cons_self
          rw [List.head?_cons, List.head?_cons, Option.map_some, Option.map_some,
            h item hitem other hother]

/-- Any number of changes, in either direction. -/
abbrev Rearranged (id : Value) : Claims → Claims → Prop :=
  Relation.EqvGen (Rearranges id)

/-- **Any number of changes leaves the items that name the claim the same**, up to order; in the
other direction too, since a permutation can be undone. -/
theorem Rearranged.named {id : Value} {c c' : Claims} (h : Rearranged id c c') :
    (c.named id).Perm (c'.named id) := by
  induction h with
  | rel c c' h => exact h.named
  | refl c => exact List.Perm.refl _
  | symm c c' _ ih => exact ih.symm
  | trans c d e _ _ ih ih' => exact ih.trans ih'

/-- Whether the items that name the claim agree does not depend on their order. -/
theorem Claims.Agrees.of_perm {id : Value} {c c' : Claims} (h : c.Agrees id)
    (hperm : (c.named id).Perm (c'.named id)) : c'.Agrees id := by
  intro item hitem other hother
  exact h item (hperm.symm.subset hitem) other (hperm.symm.subset hother)

/-- The search does not see the changes. -/
theorem findClaim_rearranged {id : Value} {c c' : Claims} (h : Rearranged id c c')
    (hsame : c.Agrees id) : findClaim c.toValue id = findClaim c'.toValue id := by
  have hperm := h.named
  rw [findClaim_toValue hsame, findClaim_toValue (hsame.of_perm hperm)]
  cases hnamed : c.named id with
  | nil => rw [hnamed] at hperm; rw [hperm.nil_eq.symm]
  | cons item items =>
      rw [hnamed] at hperm
      have hitem : item ∈ c'.named id := hperm.subset List.mem_cons_self
      cases hnamed' : c'.named id with
      | nil => rw [hnamed'] at hitem; cases hitem
      | cons other others =>
          have hother : other ∈ c'.named id := hnamed' ▸ List.mem_cons_self
          rw [List.head?_cons, List.head?_cons, Option.map_some, Option.map_some,
            hsame.of_perm h.named item hitem other hother]

/-! ### The verdict -/

/-- The exchange with these `Claims` in its reply. -/
def withClaims (raw : Value) (claims : Claims) : Value :=
  raw.withField "body" ((raw.get "body").withField "Claims" claims.toValue)

/-- A value with a field is an object, whatever it was before. -/
theorem isObject_withField (v : Value) (name : String) (x : Value) :
    (v.withField name x).isObject = true := by
  cases v <;> rfl

/-- Of a body, only five fields are looked at, and of `Claims` only what the search finds. -/
theorem classifyResponse_congr (p : Platform) (status : Value) (opts : ClassifyOptions)
    {body body' : Value} (hobj : body.isObject = body'.isObject)
    (herror : body.get "error" = body'.get "error")
    (hstatus : body.get "Status" = body'.get "Status")
    (hmessage : body.get "Message" = body'.get "Message")
    (hnow : body.get "Now" = body'.get "Now")
    (hclaim : findClaim (body.get "Claims") opts.claim =
      findClaim (body'.get "Claims") opts.claim) :
    classifyResponse p status body opts = classifyResponse p status body' opts := by
  have hfresh : ∀ now tolerance, freshnessGate p body now tolerance =
      freshnessGate p body' now tolerance := by
    intro now tolerance
    rw [freshnessGate, freshnessGate, hnow]
  have hvalue : classifyClaim p body opts = classifyClaim p body' opts := by
    rw [classifyClaim, classifyClaim, hclaim, hfresh]
  rw [classifyResponse, classifyResponse, hobj, herror, hstatus, hmessage, hvalue]

/-- **The verdict is namespace-agnostic**: no number of changes to the `Claims` of a reply
changes it, as long as the items that name the required claim agree. -/
theorem classify_rearranged (p : Platform) (raw : Value) (opts : ClassifyOptions)
    {c c' : Claims} (hsame : c.Agrees opts.claim) (h : Rearranged opts.claim c c') :
    classify p (withClaims raw c) opts = classify p (withClaims raw c') opts := by
  have hother : ∀ {name}, "body" ≠ name →
      (withClaims raw c).get name = (withClaims raw c').get name := by
    intro name hname
    rw [withClaims, withClaims, Value.get_withField_of_ne _ _ hname,
      Value.get_withField_of_ne _ _ hname]
  have hbody : ∀ c, (withClaims raw c).get "body" =
      (raw.get "body").withField "Claims" c.toValue := fun c =>
    Value.get_withField_self _ _ _
  have hfield : ∀ {name}, "Claims" ≠ name →
      ((withClaims raw c).get "body").get name = ((withClaims raw c').get "body").get name := by
    intro name hname
    rw [hbody, hbody, Value.get_withField_of_ne _ _ hname, Value.get_withField_of_ne _ _ hname]
  have hresponse : ∀ status, classifyResponse p status ((withClaims raw c).get "body") opts =
      classifyResponse p status ((withClaims raw c').get "body") opts := by
    intro status
    refine classifyResponse_congr p status opts ?_ (hfield (by decide)) (hfield (by decide))
      (hfield (by decide)) (hfield (by decide)) ?_
    · rw [hbody, hbody, isObject_withField, isObject_withField]
    · rw [hbody, hbody, Value.get_withField_self, Value.get_withField_self]
      exact findClaim_rearranged h hsame
  have hobj : ∀ c, (withClaims raw c).isObject = true := fun c => isObject_withField _ _ _
  rw [classify, classify, if_neg (not_not.mpr (hobj c)), if_neg (not_not.mpr (hobj c')),
    hother (show "body" ≠ "kind" by decide), hother (show "body" ≠ "detail" by decide),
    hother (show "body" ≠ "status" by decide), hresponse]

/-- The options of a caller who leaves everything out. -/
def defaultOptions : ClassifyOptions where
  requiredClaim := .undefined
  requireCurrentValidity := .undefined
  toleranceMs := .undefined
  now := .undefined

/-- The required claim, true, as the verifier shows it. -/
def sampleItem : Value :=
  .object [("ElementIdentifier", .string "age_over_18"), ("ElementValue", .string "9Q==")]

/-- The same claim of another profile, shown with the number of its digest: another item, with the
same answer. -/
def profileItem : Value :=
  .object [("DigestID", .string "4"), ("ElementIdentifier", .string "age_over_18"),
    ("ElementValue", .string "9Q==")]

/-- The claims of a document that names the required claim under both profiles. -/
def sampleClaims : Claims where
  entries := [("org.iso.18013.5.1", .array [sampleItem]),
    ("eu.europa.ec.av.1", .array [profileItem])]
  distinct := by simp

/-- The sample with a third namespace, whose name spells an index. -/
def addedClaims : Claims where
  entries := [("org.iso.18013.5.1", .array [sampleItem]),
    ("eu.europa.ec.av.1", .array [profileItem]), ("7", .array [])]
  distinct := by simp

/-- The second item moved into the third namespace, which the engine shows first. -/
def movedClaims : Claims where
  entries := [("org.iso.18013.5.1", .array [sampleItem]),
    ("eu.europa.ec.av.1", .array []), ("7", .array [profileItem])]
  distinct := by simp

/-- And `null` in its place. -/
def rearrangedClaims : Claims where
  entries := [("org.iso.18013.5.1", .array [sampleItem]),
    ("eu.europa.ec.av.1", .array [.null]), ("7", .array [profileItem])]
  distinct := by simp

/-- **Three changes lead from the sample to the rearranged claims**: a namespace is added, an item
moves into it, and `null` is left where it was. -/
theorem sampleClaims_rearranged :
    Rearranged (.string "age_over_18") sampleClaims rearrangedClaims := by
  have hadd : Rearranges (.string "age_over_18") sampleClaims addedClaims :=
    .addNamespace (fun item hitem => by cases hitem)
      (show sampleClaims.entries = sampleClaims.entries ++ [] from rfl)
      (show addedClaims.entries = sampleClaims.entries ++ [("7", .array [])] from rfl)
  have hmove : Rearranges (.string "age_over_18") addedClaims movedClaims :=
    .move
      (show addedClaims.entries = [("org.iso.18013.5.1", .array [sampleItem])] ++
        ("eu.europa.ec.av.1", .array ([] ++ [profileItem])) :: [] ++
        [("7", .array ([] ++ []))] from rfl)
      (show movedClaims.entries = [("org.iso.18013.5.1", .array [sampleItem])] ++
        ("eu.europa.ec.av.1", .array ([] ++ [])) :: [] ++
        [("7", .array ([] ++ [profileItem]))] from rfl)
  have hnull : Rearranges (.string "age_over_18") movedClaims rearrangedClaims :=
    .addItem (not_names_null defaultOptions)
      (show movedClaims.entries = [("org.iso.18013.5.1", .array [sampleItem])] ++
        ("eu.europa.ec.av.1", .array ([] ++ [])) :: [("7", .array [profileItem])] from rfl)
      (show rearrangedClaims.entries = [("org.iso.18013.5.1", .array [sampleItem])] ++
        ("eu.europa.ec.av.1", .array ([] ++ [.null])) :: [("7", .array [profileItem])] from rfl)
  exact ((Relation.EqvGen.rel _ _ hadd).trans _ _ _ (.rel _ _ hmove)).trans _ _ _
    (.rel _ _ hnull)

/-- **The two items that name the claim agree**: whichever of them is shown first, the answer is
the same. -/
theorem sampleClaims_agrees : sampleClaims.Agrees (.string "age_over_18") := by
  have hvalue : ∀ item ∈ sampleClaims.named (.string "age_over_18"),
      item.get "ElementValue" = .string "9Q==" := by
    intro item hitem
    obtain rfl | rfl := List.mem_pair.mp (List.mem_filter.mp hitem).1
    · rfl
    · rfl
  intro item hitem other hother
  exact (hvalue item hitem).trans (hvalue other hother).symm

/-- A proven reply over the sample, which names the claim twice, and over the rearranged claims, in
which the other of the two items is found first. -/
theorem classify_rearranged_sample :
    sampleClaims.named (.string "age_over_18") = [sampleItem, profileItem] ∧
      findClaim sampleClaims.toValue (.string "age_over_18") = .string "9Q==" ∧
      classify .sample (withClaims emptyReply sampleClaims) defaultOptions =
        classify .sample (withClaims emptyReply rearrangedClaims) defaultOptions := by
  refine ⟨rfl, ?_, ?_⟩
  · rw [findClaim_toValue sampleClaims_agrees]
    rfl
  · exact classify_rearranged .sample emptyReply defaultOptions sampleClaims_agrees
      sampleClaims_rearranged

end EightEen
