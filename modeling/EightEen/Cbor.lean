import EightEen.Js.Bytes

/-!
# Concise Binary Objects

A reader for CBOR, the binary format of nested data items. Every item starts with a head
(`Head`), which names one of eight major types and an argument: a number, a length, a count of
the items inside, or nothing, where the items inside run up to a break. `readItems` reads items
until its `Stop`, one recursion for the items behind one another and for those inside one
another, and `parse` reads a whole text as a single item.

What is accepted is what is **well-formed**: lengths that are not the shortest possible are,
and so are items of indefinite length, texts that are not UTF-8, and maps with a key twice.

## Main definitions

* `Item`, `parse`: the data model, and the reader of a whole text.
* `Encodes`: the text reads as exactly these items.

## Main results

* `readItems_extend`: a reader that succeeds does not look behind what it has read, and as much
  fuel as there are bytes is enough.
* `Encodes.append_inj`: encodings delimit themselves.
* `Encodes.cons`, `Encodes.array`, `Encodes.map`, `Encodes.tag`, `encodes_bytes`,
  `encodes_text`: encodings are put together from encodings.
-/

open Js

namespace Cbor

/-! ### Items -/

/-- A data item. The entries of a map are its keys and values by turns. -/
inductive Item where
  | unsigned (n : ℕ)
  /-- The integer `-1 - n`. -/
  | negative (n : ℕ)
  | bytes (content : List UInt8)
  | text (content : List UInt8)
  | array (items : List Item)
  | map (entries : List Item)
  | tag (number : ℕ) (content : Item)
  | simple (value : ℕ)
  /-- A floating point number of `width` bytes. -/
  | float (width bits : ℕ)

/-- The content of a string, when it is a piece of a longer one. -/
def Item.content : Item → List UInt8
  | bytes content | text content => content
  | _ => []

/-! ### Heads -/

/-- The head of an item: its major type, the low five bits of its first byte, and the argument
they announce, or `none` for an item of indefinite length and for the break. -/
structure Head where
  major : ℕ
  info : ℕ
  argument : Option ℕ
  deriving DecidableEq

/-- The number of argument bytes that follow the first byte of a head. -/
def argumentWidth (info : ℕ) : ℕ :=
  2 ^ (info - 24)

/-- Reads a head. -/
def readHead : List UInt8 → Option (Head × List UInt8)
  | [] => none
  | b :: rest =>
      let major := b.toNat / 32
      let info := b.toNat % 32
      if info < 24 then some (⟨major, info, some info⟩, rest)
      else if info = 31 then some (⟨major, info, none⟩, rest)
      else if 27 < info ∨ rest.length < argumentWidth info then none
      else some (⟨major, info, some (readBE (rest.take (argumentWidth info)))⟩,
        rest.drop (argumentWidth info))

/-- A head takes up at least one byte, and what follows it does not matter. -/
theorem readHead_extend {bytes rest : List UInt8} {head : Head}
    (h : readHead bytes = some (head, rest)) :
    rest.length < bytes.length ∧
      ∀ more, readHead (bytes ++ more) = some (head, rest ++ more) := by
  cases bytes with
  | nil => cases h
  | cons b bytes =>
      rw [readHead] at h
      simp only [List.cons_append, readHead, List.length_cons, List.length_append]
      split at h
      · next hinfo =>
          cases h
          exact ⟨Nat.lt_succ_self _, fun more => if_pos hinfo⟩
      next hlong =>
      split at h
      · next hinfo =>
          cases h
          exact ⟨Nat.lt_succ_self _, fun more => by rw [if_neg hlong, if_pos hinfo]⟩
      next hdefinite =>
      split at h
      · cases h
      next hfits =>
      cases h
      rw [not_or, not_lt, not_lt] at hfits
      refine ⟨?_, fun more => ?_⟩
      · rw [List.length_drop]
        omega
      · rw [if_neg hlong, if_neg hdefinite, if_neg (by omega),
          List.take_append_of_le_length hfits.2, List.drop_append_of_le_length hfits.2]

/-- The head of one byte. -/
theorem readHead_short (major : ℕ) {n : ℕ} (hmajor : major < 8) (hn : n < 24) :
    readHead [UInt8.ofNat (32 * major + n)] = some (⟨major, n, some n⟩, []) := by
  have hbyte : (UInt8.ofNat (32 * major + n)).toNat = 32 * major + n := by
    rw [UInt8.toNat_ofNat']
    omega
  have hdiv : (32 * major + n) / 32 = major := by omega
  have hmod : (32 * major + n) % 32 = n := by omega
  simp only [readHead, hbyte, hdiv, hmod]
  exact if_pos hn

/-- A head with its argument in bytes of its own. -/
theorem readHead_long (major info : ℕ) (hmajor : major < 8) (hinfo : 24 ≤ info)
    (hinfo' : info ≤ 27) {argument : List UInt8} (harg : argument.length = argumentWidth info) :
    readHead (UInt8.ofNat (32 * major + info) :: argument) =
      some (⟨major, info, some (readBE argument)⟩, []) := by
  have hbyte : (UInt8.ofNat (32 * major + info)).toNat = 32 * major + info := by
    rw [UInt8.toNat_ofNat']
    omega
  have hdiv : (32 * major + info) / 32 = major := by omega
  have hmod : (32 * major + info) % 32 = info := by omega
  simp only [readHead, hbyte, hdiv, hmod]
  rw [if_neg (by omega), if_neg (by omega), if_neg (by omega), ← harg, List.take_length,
    List.drop_length]

/-! ### Reading -/

/-- Reads the content of a string of `n` bytes. -/
def readString (n : ℕ) (bytes : List UInt8) : Option (List UInt8 × List UInt8) :=
  if n ≤ bytes.length then some (bytes.take n, bytes.drop n) else none

/-- Where a sequence of items ends: after a number of them, at a break, or at the break behind
the pieces of a string of this major type. -/
inductive Stop where
  | count (n : ℕ)
  | untilBreak
  | pieces (major : ℕ)

/-- The rest behind a break. -/
def afterBreak : List UInt8 → Option (List UInt8)
  | [] => none
  | b :: rest => if b = 0xFF then some rest else none

/-- The rest, when the sequence ends here. -/
def Stop.ended : Stop → List UInt8 → Option (List UInt8)
  | count n, bytes => if n = 0 then some bytes else none
  | untilBreak, bytes | pieces _, bytes => afterBreak bytes

/-- The sequence goes on with an item that has this head: a piece of a string is a string of
the same type, and of a length that is known. -/
def Stop.admits : Stop → Head → Bool
  | pieces major, head => head.major = major && head.argument.isSome
  | _, _ => true

/-- Where the sequence ends behind its first item. -/
def Stop.next : Stop → Stop
  | count n => count (n - 1)
  | stop => stop

/-- The item of the last major type: a simple value, of which the first thirty-two have no form
with an argument of its own, or a floating point number. -/
def scalar (info n : ℕ) : Option Item :=
  if info < 24 then some (.simple n)
  else if info = 24 then if n < 32 then none else some (.simple n)
  else some (.float (argumentWidth info) n)

/-- Reads an item behind its head, with a reader for the items inside. -/
def readBody (nested : Stop → List UInt8 → Option (List Item × List UInt8)) (head : Head)
    (bytes : List UInt8) : Option (Item × List UInt8) :=
  match head.major, head.argument with
  | 0, some n => some (.unsigned n, bytes)
  | 1, some n => some (.negative n, bytes)
  | 2, some n => (readString n bytes).map fun r => (.bytes r.1, r.2)
  | 2, none => (nested (.pieces 2) bytes).map fun r => (.bytes (r.1.flatMap Item.content), r.2)
  | 3, some n => (readString n bytes).map fun r => (.text r.1, r.2)
  | 3, none => (nested (.pieces 3) bytes).map fun r => (.text (r.1.flatMap Item.content), r.2)
  | 4, some n => (nested (.count n) bytes).map fun r => (.array r.1, r.2)
  | 4, none => (nested .untilBreak bytes).map fun r => (.array r.1, r.2)
  | 5, some n => (nested (.count (2 * n)) bytes).map fun r => (.map r.1, r.2)
  | 5, none => (nested .untilBreak bytes).bind fun r =>
      if r.1.length % 2 = 0 then some (.map r.1, r.2) else none
  | 6, some n => (nested (.count 1) bytes).bind fun r =>
      match r.1 with
      | [item] => some (.tag n item, r.2)
      | _ => none
  | 7, some n => (scalar head.info n).map fun item => (item, bytes)
  | _, _ => none

/-- Reads the items up to the stop. The fuel bounds the items behind and inside one another. -/
def readItems : ℕ → Stop → List UInt8 → Option (List Item × List UInt8)
  | 0, stop, bytes => (stop.ended bytes).map fun rest => ([], rest)
  | fuel + 1, stop, bytes =>
      match stop.ended bytes with
      | some rest => some ([], rest)
      | none =>
          match readHead bytes with
          | none => none
          | some (head, body) =>
              if stop.admits head then
                (readBody (readItems fuel) head body).bind fun r =>
                  (readItems fuel stop.next r.2).map fun rs => (r.1 :: rs.1, rs.2)
              else none

/-- Reads a text as a single item. -/
def parse (bytes : List UInt8) : Option Item :=
  match readItems bytes.length (.count 1) bytes with
  | some ([item], []) => some item
  | _ => none

/-! ### Extension -/

/-- Reading a string leaves a rest, and reads the same in front of any more bytes. -/
theorem readString_extend {n : ℕ} {bytes content rest : List UInt8}
    (h : readString n bytes = some (content, rest)) :
    rest.length ≤ bytes.length ∧
      ∀ more, readString n (bytes ++ more) = some (content, rest ++ more) := by
  rw [readString] at h
  split at h
  swap
  · cases h
  next hn =>
  cases h
  refine ⟨by rw [List.length_drop]; omega, fun more => ?_⟩
  rw [readString, if_pos (by rw [List.length_append]; omega),
    List.take_append_of_le_length hn, List.drop_append_of_le_length hn]

/-- So does the byte that ends an item of indefinite length. -/
theorem afterBreak_extend {bytes rest : List UInt8} (h : afterBreak bytes = some rest) :
    rest.length ≤ bytes.length ∧ ∀ more, afterBreak (bytes ++ more) = some (rest ++ more) := by
  cases bytes with
  | nil => cases h
  | cons b bytes =>
      rw [afterBreak] at h
      split at h <;> cases h
      next hb => exact ⟨Nat.le_succ _, fun more => if_pos hb⟩

/-- So does the end of a list, in either of its forms. -/
theorem Stop.ended_extend {stop : Stop} {bytes rest : List UInt8}
    (h : stop.ended bytes = some rest) :
    rest.length ≤ bytes.length ∧ ∀ more, stop.ended (bytes ++ more) = some (rest ++ more) := by
  cases stop with
  | count n =>
      rw [ended] at h
      split at h <;> cases h
      next hn => exact ⟨le_rfl, fun more => if_pos hn⟩
  | untilBreak => exact afterBreak_extend h
  | pieces major => exact afterBreak_extend h

/-- A sequence that goes on goes on whatever follows. -/
theorem Stop.ended_eq_none_extend {stop : Stop} {b : UInt8} {bytes : List UInt8}
    (h : stop.ended (b :: bytes) = none) (more : List UInt8) :
    stop.ended (b :: bytes ++ more) = none := by
  cases stop with
  | count n =>
      rw [ended] at h ⊢
      split at h
      · cases h
      · next hn => exact if_neg hn
  | untilBreak | pieces major =>
      rw [ended, afterBreak] at h
      rw [ended, List.cons_append, afterBreak]
      split at h
      · cases h
      · next hb => exact if_neg hb

/-- An item behind its head, when the reader for the items inside is replaced by one that
reads the same with more behind it. -/
theorem readBody_extend {nested : Stop → List UInt8 → Option (List Item × List UInt8)}
    (nested' : Stop → List UInt8 → Option (List Item × List UInt8)) {head : Head}
    {body rest : List UInt8} (more : List UInt8) {item : Item}
    (hnested : ∀ stop items inner, nested stop body = some (items, inner) →
      inner.length ≤ body.length ∧ nested' stop (body ++ more) = some (items, inner ++ more))
    (h : readBody nested head body = some (item, rest)) :
    rest.length ≤ body.length ∧
      readBody nested' head (body ++ more) = some (item, rest ++ more) := by
  -- The items inside are mapped to the item.
  have hmap : ∀ (stop : Stop) (f : List Item → Item),
      (nested stop body).map (fun r => (f r.1, r.2)) = some (item, rest) →
      rest.length ≤ body.length ∧
        (nested' stop (body ++ more)).map (fun r => (f r.1, r.2)) = some (item, rest ++ more) := by
    intro stop f hstop
    obtain ⟨⟨items, inner⟩, hread, heq⟩ := Option.map_eq_some_iff.mp hstop
    obtain ⟨rfl, rfl⟩ := Prod.mk.inj heq
    obtain ⟨hlen, hread'⟩ := hnested stop items inner hread
    exact ⟨hlen, by rw [hread', Option.map_some]⟩
  have hstring : ∀ (n : ℕ) (f : List UInt8 → Item),
      (readString n body).map (fun r => (f r.1, r.2)) = some (item, rest) →
      rest.length ≤ body.length ∧
        (readString n (body ++ more)).map (fun r => (f r.1, r.2)) =
          some (item, rest ++ more) := by
    intro n f hn
    obtain ⟨⟨content, inner⟩, hread, heq⟩ := Option.map_eq_some_iff.mp hn
    obtain ⟨rfl, rfl⟩ := Prod.mk.inj heq
    obtain ⟨hlen, hread'⟩ := readString_extend hread
    exact ⟨hlen, by rw [hread', Option.map_some]⟩
  rw [readBody] at h ⊢
  split at h
  · cases h
    exact ⟨le_rfl, rfl⟩
  · cases h
    exact ⟨le_rfl, rfl⟩
  · exact hstring _ Item.bytes h
  · exact hmap _ (fun items => .bytes (items.flatMap Item.content)) h
  · exact hstring _ Item.text h
  · exact hmap _ (fun items => .text (items.flatMap Item.content)) h
  · exact hmap _ Item.array h
  · exact hmap _ Item.array h
  · exact hmap _ Item.map h
  · obtain ⟨⟨items, inner⟩, hread, heq⟩ := Option.bind_eq_some_iff.mp h
    obtain ⟨hlen, hread'⟩ := hnested _ items inner hread
    dsimp only at heq
    split at heq <;> cases heq
    next heven => exact ⟨hlen, by rw [hread', Option.bind_some, if_pos heven]⟩
  · obtain ⟨⟨items, inner⟩, hread, heq⟩ := Option.bind_eq_some_iff.mp h
    obtain ⟨hlen, hread'⟩ := hnested _ items inner hread
    dsimp only at heq
    split at heq <;> cases heq
    exact ⟨hlen, by rw [hread', Option.bind_some]⟩
  · obtain ⟨scalar, hscalar, heq⟩ := Option.map_eq_some_iff.mp h
    obtain ⟨rfl, rfl⟩ := Prod.mk.inj heq
    exact ⟨le_rfl, by rw [hscalar, Option.map_some]⟩
  · cases h

/-- **A reader that succeeds does not look behind what it has read**, and as much fuel as there
are bytes is enough for it. -/
theorem readItems_extend {fuel : ℕ} {stop : Stop} {bytes rest : List UInt8} {items : List Item}
    (h : readItems fuel stop bytes = some (items, rest)) :
    rest.length ≤ bytes.length ∧ ∀ fuel' more, bytes.length ≤ fuel' →
      readItems fuel' stop (bytes ++ more) = some (items, rest ++ more) := by
  have hended : ∀ {stop bytes rest}, Stop.ended stop bytes = some rest →
      ∀ fuel' more, readItems fuel' stop (bytes ++ more) = some ([], rest ++ more) := by
    intro stop bytes rest h fuel' more
    have hmore := (Stop.ended_extend h).2 more
    cases fuel' with
    | zero => rw [readItems, hmore, Option.map_some]
    | succ fuel' => rw [readItems, hmore]
  induction fuel generalizing stop bytes rest items with
  | zero =>
      rw [readItems] at h
      obtain ⟨rest', hstop, heq⟩ := Option.map_eq_some_iff.mp h
      obtain ⟨rfl, rfl⟩ := Prod.mk.inj heq
      exact ⟨(Stop.ended_extend hstop).1, fun fuel' more _ => hended hstop fuel' more⟩
  | succ fuel ih =>
      rw [readItems] at h
      split at h
      · next hstop =>
          cases h
          exact ⟨(Stop.ended_extend hstop).1, fun fuel' more _ => hended hstop fuel' more⟩
      next hstop =>
      split at h
      · cases h
      next head body hhead =>
      split at h
      swap
      · cases h
      next hadmits =>
      obtain ⟨⟨item, mid⟩, hbody, h⟩ := Option.bind_eq_some_iff.mp h
      obtain ⟨⟨items', rest'⟩, hitems, heq⟩ := Option.map_eq_some_iff.mp h
      obtain ⟨rfl, rfl⟩ := Prod.mk.inj heq
      obtain ⟨hshorter, hhead'⟩ := readHead_extend hhead
      have hmid : mid.length ≤ body.length :=
        (readBody_extend (readItems body.length) [] (fun stop items inner hread =>
          ⟨(ih hread).1, (ih hread).2 body.length [] le_rfl⟩) hbody).1
      refine ⟨(ih hitems).1.trans (hmid.trans hshorter.le), fun fuel' more hfuel => ?_⟩
      -- The head has used up one byte, and one unit of fuel is left for it.
      cases fuel' with
      | zero => omega
      | succ fuel' =>
          have hbody' := (readBody_extend (readItems fuel') more (fun stop items inner hread =>
            ⟨(ih hread).1, (ih hread).2 fuel' more (by omega)⟩) hbody).2
          have hgoes : stop.ended (bytes ++ more) = none := by
            cases bytes with
            | nil => cases hhead
            | cons b bytes => exact Stop.ended_eq_none_extend hstop more
          rw [readItems, hgoes, hhead' more]
          dsimp only
          dsimp only at hmid hitems
          rw [if_pos hadmits, hbody', Option.bind_some, (ih hitems).2 fuel' more (by omega),
            Option.map_some]

/-! ### Encodings -/

/-- The bytes read as exactly these items. -/
def Encodes (code : List UInt8) (items : List Item) : Prop :=
  readItems code.length (.count items.length) code = some (items, [])

/-- With enough fuel the items are read whatever stands behind them. -/
theorem Encodes.read {code : List UInt8} {items : List Item} (h : Encodes code items) (fuel : ℕ)
    (hfuel : code.length ≤ fuel) (more : List UInt8) :
    readItems fuel (.count items.length) (code ++ more) = some (items, more) :=
  (readItems_extend h).2 fuel more hfuel

/-- Fuel that is enough shows an encoding. -/
theorem encodes_of_read (fuel : ℕ) {code : List UInt8} {items : List Item}
    (h : readItems fuel (.count items.length) code = some (items, [])) : Encodes code items := by
  have hread := (readItems_extend h).2 code.length [] le_rfl
  rwa [List.append_nil] at hread

/-- **The whole text is one item** exactly when it encodes it. -/
theorem parse_eq_some_iff {bytes : List UInt8} {item : Item} :
    parse bytes = some item ↔ Encodes bytes [item] := by
  rw [parse, Encodes]
  constructor
  · intro h
    split at h
    · next hread =>
        cases h
        exact hread
    · cases h
  · intro h
    rw [List.length_singleton] at h
    rw [h]

/-- **Encodings delimit themselves**: two encodings of equally many items that start the same
bytes are one encoding of the same items, and the same bytes follow. -/
theorem Encodes.append_inj {code code' rest rest' : List UInt8} {items items' : List Item}
    (h : Encodes code items) (h' : Encodes code' items') (hlen : items.length = items'.length)
    (heq : code ++ rest = code' ++ rest') : code = code' ∧ items = items' ∧ rest = rest' := by
  -- One reader, with fuel for both.
  have hread := h.read (max code.length code'.length) (le_max_left _ _) rest
  have hread' := h'.read (max code.length code'.length) (le_max_right _ _) rest'
  rw [hlen, heq, hread'] at hread
  obtain ⟨rfl, rfl⟩ := Prod.mk.inj (Option.some.inj hread)
  exact ⟨List.append_cancel_right heq, rfl, rfl⟩

/-- One item, and others behind it. -/
theorem readItems_succ {fuel n : ℕ} {bytes body mid rest : List UInt8} {head : Head} {item : Item}
    {items : List Item} (hhead : readHead bytes = some (head, body))
    (hbody : readBody (readItems fuel) head body = some (item, mid))
    (hitems : readItems fuel (.count n) mid = some (items, rest)) :
    readItems (fuel + 1) (.count (n + 1)) bytes = some (item :: items, rest) := by
  have hgoes : (Stop.count (n + 1)).ended bytes = none := by
    rw [Stop.ended, if_neg (Nat.succ_ne_zero n)]
  rw [readItems, hgoes, hhead]
  dsimp only
  have hnext : (Stop.count (n + 1)).next = .count n := rfl
  rw [if_pos (show (Stop.count (n + 1)).admits head = true from rfl), hbody, Option.bind_some,
    hnext, hitems, Option.map_some]

/-- The parts of an item. -/
theorem Encodes.exists_body {code : List UInt8} {item : Item} (h : Encodes code [item]) :
    ∃ head body fuel, readHead code = some (head, body) ∧
      readBody (readItems fuel) head body = some (item, []) := by
  rw [Encodes, List.length_singleton] at h
  cases hcode : code.length with
  | zero =>
      rw [List.length_eq_zero_iff.mp hcode] at h
      cases h
  | succ fuel =>
      rw [hcode, readItems] at h
      split at h
      · cases h
      split at h
      · cases h
      next head body hhead =>
      rw [if_pos (show (Stop.count 1).admits head = true from rfl)] at h
      obtain ⟨⟨item', mid⟩, hbody, h⟩ := Option.bind_eq_some_iff.mp h
      obtain ⟨⟨items', rest'⟩, hitems, heq⟩ := Option.map_eq_some_iff.mp h
      obtain ⟨hitem, rfl⟩ := Prod.mk.inj heq
      obtain ⟨rfl, rfl⟩ := List.cons.inj hitem
      have hmid : readItems fuel (.count 0) mid = some ([], mid) := by
        cases fuel <;> rfl
      obtain rfl : mid = [] := (Prod.mk.inj (Option.some.inj (hmid.symm.trans hitems))).2
      exact ⟨head, body, fuel, hhead, hbody⟩

/-- No bytes encode no items. -/
theorem encodes_nil : Encodes [] [] := rfl

/-- **Encodings are strung together.** -/
theorem Encodes.cons {code codes : List UInt8} {item : Item} {items : List Item}
    (hitem : Encodes code [item]) (hitems : Encodes codes items) :
    Encodes (code ++ codes) (item :: items) := by
  obtain ⟨head, body, fuel, hhead, hbody⟩ := hitem.exists_body
  obtain ⟨-, hhead'⟩ := readHead_extend hhead
  have hbody' := (readBody_extend (readItems (body ++ codes).length) codes
    (fun stop items inner hread => ⟨(readItems_extend hread).1,
      (readItems_extend hread).2 _ codes (by rw [List.length_append]; omega)⟩) hbody).2
  refine encodes_of_read ((body ++ codes).length + 1)
    (readItems_succ (hhead' codes) hbody' ?_)
  have hread := hitems.read (body ++ codes).length
    (by rw [List.length_append]; omega) []
  rwa [List.append_nil] at hread

/-- An item behind its head. -/
theorem encodes_of_body (fuel : ℕ) {code body : List UInt8} {head : Head} {item : Item}
    (hhead : readHead code = some (head, []))
    (hbody : readBody (readItems fuel) head body = some (item, [])) :
    Encodes (code ++ body) [item] := by
  have hhead' := (readHead_extend hhead).2 body
  refine encodes_of_read (fuel + 1) (readItems_succ hhead' hbody ?_)
  cases fuel <;> rfl

/-! ### Building -/

/-- A header of a byte string, in front of as many bytes, encodes that string. -/
theorem encodes_bytes {code content : List UInt8} {info : ℕ}
    (hhead : readHead code = some (⟨2, info, some content.length⟩, [])) :
    Encodes (code ++ content) [.bytes content] := by
  refine encodes_of_body 0 hhead ?_
  simp [readBody, readString]

/-- A header of a text, in front of as many bytes, encodes that text. -/
theorem encodes_text {code content : List UInt8} {info : ℕ}
    (hhead : readHead code = some (⟨3, info, some content.length⟩, [])) :
    Encodes (code ++ content) [.text content] := by
  refine encodes_of_body 0 hhead ?_
  simp [readBody, readString]

/-- **An array**: the header with their number, in front of what encodes the items. -/
theorem Encodes.array {code codes : List UInt8} {items : List Item} {info : ℕ}
    (h : Encodes codes items) (hhead : readHead code = some (⟨4, info, some items.length⟩, [])) :
    Encodes (code ++ codes) [.array items] := by
  refine encodes_of_body codes.length hhead ?_
  have hnested : readItems codes.length (.count items.length) codes = some (items, []) := h
  simp [readBody, hnested]

/-- A map of `n` entries. -/
theorem Encodes.map {code codes : List UInt8} {items : List Item} {info n : ℕ}
    (h : Encodes codes items) (hn : items.length = 2 * n)
    (hhead : readHead code = some (⟨5, info, some n⟩, [])) :
    Encodes (code ++ codes) [.map items] := by
  refine encodes_of_body codes.length hhead ?_
  have hnested : readItems codes.length (.count items.length) codes = some (items, []) := h
  simp [readBody, ← hn, hnested]

/-- **A tagged item**: the header of the tag, in front of what encodes the item. -/
theorem Encodes.tag {code codes : List UInt8} {item : Item} {info n : ℕ}
    (h : Encodes codes [item]) (hhead : readHead code = some (⟨6, info, some n⟩, [])) :
    Encodes (code ++ codes) [.tag n item] := by
  refine encodes_of_body codes.length hhead ?_
  have hnested : readItems codes.length (.count 1) codes = some ([item], []) := h
  simp [readBody, hnested]

end Cbor
