import EightEen.Mint

/-!
# What Is Minted

Every document that `tools/mkfixture/mint.go` mints is read back: its bytes are **one item with
nothing left over**, and the parts of it that are hashed and signed are the very bytes that it
carries. The lengths are encoded by hand on four levels, and the bytes that the issuer signs are
put together apart from those that are embedded; what holds of them is stated over all names of
the document type, all salts, keys, values, clocks and signatures.

`Builds` says of a call that what it returns reads as certain items, and its rules follow the
concatenations of the source.

## Main results

* `builds_buildMSO`, `builds_deviceResponse`: the signed object and the response, as items.
* `credentialWith_parts`: what a credential is made of.
* `minted_response_framed`: a minted response is exactly framed and internally consistent.
-/

open Js Cbor

namespace EightEen

namespace Mint

/-! ### Calls that build items -/

/-- What the call returns reads as these items. -/
def Builds (call : Go (List UInt8)) (items : List Item) : Prop :=
  ∀ c, call = .ok c → Encodes c items

/-- Code that encodes items builds them: a part that cannot fail is one whose bytes are known. -/
theorem builds_of_encodes {c : List UInt8} {items : List Item} (h : Encodes c items) :
    Builds (.ok c) items := by
  rintro c' h'
  obtain rfl := Except.ok.inj h'
  exact h

/-- No parts build no items, and the bytes of `cat` are then empty. -/
theorem builds_nil : Builds (cat []) [] :=
  builds_of_encodes encodes_nil

/-- **A part in front of others** builds its item in front of theirs; this is how the parts of a
map or an array are put together one by one. -/
theorem Builds.cons {part : Go (List UInt8)} {parts : List (Go (List UInt8))} {item : Item}
    {items : List Item} (hpart : Builds part [item]) (hparts : Builds (cat parts) items) :
    Builds (cat (part :: parts)) (item :: items) := by
  intro c h
  obtain ⟨front, back, hfront, hback, rfl⟩ := cat_cons_eq_ok.mp h
  exact (hpart front hfront).cons (hparts back hback)

/-- A call whose result goes into further code: what the code builds for every result of the call,
the two build together. -/
theorem Builds.bind {call : Go (List UInt8)} {f : List UInt8 → Go (List UInt8)}
    {items items' : List Item} (h : Builds call items)
    (hf : ∀ c, Encodes c items → Builds (f c) items') : Builds (call >>= f) items' := by
  intro c hc
  obtain ⟨a, ha, hc⟩ := go_eq_ok.mp hc
  exact hf a (h a ha) c hc

/-- **A map**: a header for `n` pairs in front of parts that build `2 * n` items builds the map of
these items. -/
theorem Builds.map {header : List UInt8} {parts : List (Go (List UInt8))} {items : List Item}
    {info n : ℕ} (hheader : readHead header = some (⟨5, info, some n⟩, []))
    (hn : items.length = 2 * n) (h : Builds (cat parts) items) :
    Builds (cat (.ok header :: parts)) [.map items] := by
  intro c hc
  obtain ⟨front, back, hfront, hback, rfl⟩ := cat_cons_eq_ok.mp hc
  obtain rfl := Except.ok.inj hfront
  exact (h back hback).map hn hheader

/-- **An array**: a header with the number of the items in front of parts that build them builds
the array of these items. -/
theorem Builds.array {header : List UInt8} {parts : List (Go (List UInt8))} {items : List Item}
    {info : ℕ} (hheader : readHead header = some (⟨4, info, some items.length⟩, []))
    (h : Builds (cat parts) items) : Builds (cat (.ok header :: parts)) [.array items] := by
  intro c hc
  obtain ⟨front, back, hfront, hback, rfl⟩ := cat_cons_eq_ok.mp hc
  obtain rfl := Except.ok.inj hfront
  exact (h back hback).array hheader

/-! ### Strings and numbers -/

/-- One byte reads back as the number below 256 that was written to it. -/
theorem readBE_byte {n : ℕ} (h : n < 256) : readBE [UInt8.ofNat n] = n := by
  have hbyte : (UInt8.ofNat n).toNat = n := by
    rw [UInt8.toNat_ofNat']
    omega
  rw [readBE, List.foldl_cons, List.foldl_nil, hbyte]
  omega

/-- Two bytes in big-endian order read back as the number below 65536 that `be16` has written. -/
theorem readBE_be16 {n : ℕ} (h : n < 65536) : readBE (be16 n) = n := by
  have hhigh : (UInt8.ofNat (n / 256)).toNat = n / 256 := by
    rw [UInt8.toNat_ofNat']
    omega
  have hlow : (UInt8.ofNat n).toNat = n % 256 := UInt8.toNat_ofNat'
  rw [readBE, be16, List.foldl_cons, List.foldl_cons, List.foldl_nil, hhigh, hlow]
  omega

/-- The header of a text of up to 255 bytes is read as that of a text of this length, in either of
its two forms. -/
theorem readHead_textHeader {n : ℕ} (h : n < 256) :
    ∃ info, readHead (textHeader n) = some (⟨3, info, some n⟩, []) := by
  rw [textHeader]
  split
  · next hshort =>
      refine ⟨n, ?_⟩
      rw [(ofNat_or hshort).1, readHead_short 3 (by decide) hshort]
  · have hhead := readHead_long 3 24 (by decide) (by decide) (by decide)
      (show [UInt8.ofNat n].length = argumentWidth 24 from rfl)
    rw [readBE_byte h] at hhead
    exact ⟨24, hhead⟩

/-- The header of a byte string of up to 65535 bytes is read as that of a byte string of this
length, in any of its three forms. -/
theorem readHead_byteHeader {n : ℕ} (h : n < 65536) :
    ∃ info, readHead (byteHeader n) = some (⟨2, info, some n⟩, []) := by
  rw [byteHeader]
  split
  · next hshort =>
      refine ⟨n, ?_⟩
      rw [(ofNat_or hshort).2, readHead_short 2 (by decide) hshort]
  split
  · next hbyte =>
      have hhead := readHead_long 2 24 (by decide) (by decide) (by decide)
        (show [UInt8.ofNat n].length = argumentWidth 24 from rfl)
      rw [readBE_byte hbyte] at hhead
      exact ⟨24, hhead⟩
  · have hhead := readHead_long 2 25 (by decide) (by decide) (by decide)
      (show (be16 n).length = argumentWidth 25 from rfl)
    rw [readBE_be16 h] at hhead
    exact ⟨25, hhead⟩

/-- `tstr` builds the text that it is given, wherever it does not panic. -/
theorem builds_tstr (s : List UInt8) : Builds (tstr s) [.text s] := by
  intro c h
  obtain ⟨hlen, rfl⟩ := tstr_eq_ok_iff.mp h
  obtain ⟨info, hhead⟩ := readHead_textHeader hlen
  exact encodes_text hhead

/-- `bstr` builds the byte string that it is given, wherever it does not panic. -/
theorem builds_bstr (b : List UInt8) : Builds (bstr b) [.bytes b] := by
  intro c h
  obtain ⟨hlen, rfl⟩ := bstr_eq_ok_iff.mp h
  obtain ⟨info, hhead⟩ := readHead_byteHeader hlen
  exact encodes_bytes hhead

/-- `cborUint` builds the number that it is given, wherever it does not panic. -/
theorem builds_cborUint (n : ℕ) : Builds (cborUint n) [.unsigned n] := by
  intro c h
  rw [cborUint] at h
  split at h <;> cases h
  next hn =>
  have hhead := readHead_short 0 (n := n) (by decide) (by omega)
  rw [Nat.mul_zero, Nat.zero_add] at hhead
  rw [Int.toNat_natCast, ← List.append_nil [UInt8.ofNat n]]
  exact encodes_of_body 0 hhead rfl

/-- The one byte for which the builders write an empty map is an empty map. -/
theorem encodes_emptyMap : Encodes [0xA0] [.map []] :=
  show Encodes ([0xA0] ++ []) [.map []] from encodes_nil.map rfl rfl

/-- A byte string behind tag 24 holds the bytes of another item. -/
theorem builds_wrapTag24 (b : List UInt8) : Builds (wrapTag24 b) [.tag 24 (.bytes b)] := by
  intro c h
  obtain ⟨front, back, hfront, hback, rfl⟩ := cat_cons_eq_ok.mp h
  obtain rfl := Except.ok.inj hfront
  obtain ⟨content, rest, hcontent, hrest, rfl⟩ := cat_cons_eq_ok.mp hback
  obtain rfl := Except.ok.inj hrest
  rw [List.append_nil]
  exact (builds_bstr b content hcontent).tag rfl

/-! ### The items -/

/-- A text constant. -/
def constant (s : String) : Item :=
  .text (ascii s)

/-- What `buildIssuerSignedItemMap` builds. -/
def itemTree (salt : List UInt8) (element : Item) : Item :=
  .map [constant "digestID", .unsigned 0, constant "random", .bytes salt,
    constant "elementIdentifier", .text elemID, constant "elementValue", element]

/-- What `buildCOSEKey` builds. -/
def coseKeyTree (x y : List UInt8) : Item :=
  .map [.unsigned 1, .unsigned 2, .negative 0, .unsigned 1, .negative 1, .bytes x, .negative 2,
    .bytes y]

/-- What `buildTDate` builds. -/
def tdateTree (s : List UInt8) : Item :=
  .tag 0 (.text s)

/-- What `buildMSO` builds. -/
def msoTree (dom : Domain) (itemDigest x y : List UInt8) (ck : CredClock) : Item :=
  .map [constant "version", constant "1.0",
    constant "digestAlgorithm", constant "SHA-256",
    constant "docType", .text dom.docType,
    constant "valueDigests", .map [.text dom.nameSpace, .map [.unsigned 0, .bytes itemDigest]],
    constant "deviceKeyInfo", .map [constant "deviceKey", coseKeyTree x y],
    constant "validityInfo", .map [constant "validFrom", tdateTree ck.validFrom,
      constant "validUntil", tdateTree ck.validUntil]]

/-- A signature, with the algorithm in its protected header. -/
def cose1Tree (payload : Item) (sig : List UInt8) : Item :=
  .array [.bytes [0xA1, 0x01, 0x26], .map [], payload, .bytes sig]

/-- The part of a response that the issuer signs. -/
def issuerSignedTree (dom : Domain) (itemMap tmsoContent issuerSig : List UInt8) : Item :=
  .map [constant "nameSpaces", .map [.text dom.nameSpace, .array [.tag 24 (.bytes itemMap)]],
    constant "issuerAuth", cose1Tree (.bytes tmsoContent) issuerSig]

/-- The part of a response that the device signs. -/
def deviceSignedTree (deviceSig : List UInt8) : Item :=
  .map [constant "nameSpaces", .tag 24 (.bytes [0xA0]),
    constant "deviceAuth", .map [constant "deviceSignature", cose1Tree (.simple 22) deviceSig]]

/-- What `deviceResponse` builds, from these two parts. -/
def responseTree (dom : Domain) (issuerSigned deviceSigned : Item) : Item :=
  .map [constant "version", constant "1.0",
    constant "documents", .array [.map [constant "docType", .text dom.docType,
      constant "issuerSigned", issuerSigned, constant "deviceSigned", deviceSigned]],
    constant "status", .unsigned 0]

/-! ### The builders -/

/-- A date is the text of it behind tag 0, and nothing else is checked of it but its length. -/
theorem builds_buildTDate (s : List UInt8) : Builds (buildTDate s) [tdateTree s] := by
  intro c h
  rw [buildTDate] at h
  split at h
  · cases h
  next hlen =>
  obtain rfl := Except.ok.inj h
  have hhead : readHead [0x74] = some (⟨3, 20, some s.length⟩, []) := by
    rw [not_not.mp hlen]
    rfl
  have htag : Encodes ([0xC0] ++ ([0x74] ++ s)) [tdateTree s] := (encodes_text hhead).tag rfl
  rw [List.append_nil]
  exact htag

/-- The map of one item holds its digest id, its salt, its identifier and its value, in that
order. -/
theorem builds_buildIssuerSignedItemMap (salt id : List UInt8) {elemValue : List UInt8}
    {element : Item} (hvalue : parse elemValue = some element) :
    Builds (buildIssuerSignedItemMap 0 salt id elemValue)
      [.map [constant "digestID", .unsigned 0, constant "random", .bytes salt,
        constant "elementIdentifier", .text id, constant "elementValue", element]] :=
  Builds.map rfl rfl <|
    (builds_tstr _).cons <| (builds_cborUint 0).cons <|
    (builds_tstr _).cons <| (builds_bstr salt).cons <|
    (builds_tstr _).cons <| (builds_tstr id).cons <|
    (builds_tstr _).cons <| (builds_of_encodes (parse_eq_some_iff.mp hvalue)).cons builds_nil

/-- The COSE key of a device: an EC2 key on P-256 with both coordinates in full width. -/
theorem builds_buildCOSEKey {x y : List UInt8} (hx : x.length = 32) (hy : y.length = 32) :
    Builds (buildCOSEKey x y) [coseKeyTree x y] := by
  have hcoord : ∀ {z : List UInt8}, z.length = 32 → Encodes ([0x58, 0x20] ++ z) [.bytes z] := by
    intro z hz
    have hhead : readHead [0x58, 0x20] = some (⟨2, 24, some z.length⟩, []) := by
      rw [hz]
      rfl
    exact encodes_bytes hhead
  have hone : Encodes [0x01] [.unsigned 1] := rfl
  have htwo : Encodes [0x02] [.unsigned 2] := rfl
  have hcurve : Encodes [0x20] [.negative 0] := rfl
  have hx' : Encodes [0x21] [.negative 1] := rfl
  have hy' : Encodes [0x22] [.negative 2] := rfl
  have hentries := hone.cons <| htwo.cons <| hcurve.cons <| hone.cons <| hx'.cons <|
    (hcoord hx).cons <| hy'.cons <| hcoord hy
  have hmap : Encodes ([0xA4] ++ _) [coseKeyTree x y] := hentries.map rfl rfl
  intro c h
  obtain rfl : [0xA4, 0x01, 0x02, 0x20, 0x01, 0x21, 0x58, 0x20] ++
      (x ++ ([0x22, 0x58, 0x20] ++ (y ++ []))) = c := Except.ok.inj h
  rw [List.append_nil]
  exact hmap

/-- The validity of a credential: two dates, the first of which is named `validFrom`. -/
theorem builds_buildValidityInfo (ck : CredClock) :
    Builds (buildValidityInfo ck) [.map [constant "validFrom", tdateTree ck.validFrom,
      constant "validUntil", tdateTree ck.validUntil]] :=
  Builds.map rfl rfl <|
    (builds_tstr _).cons <| (builds_buildTDate ck.validFrom).cons <|
    (builds_tstr _).cons <| (builds_buildTDate ck.validUntil).cons builds_nil

/-- The device key info holds the key, and nothing besides. -/
theorem builds_buildDeviceKeyInfo {coseKey : List UInt8} {key : Item}
    (hkey : Encodes coseKey [key]) :
    Builds (buildDeviceKeyInfo coseKey) [.map [constant "deviceKey", key]] :=
  Builds.map rfl rfl <| (builds_tstr _).cons <| (builds_of_encodes hkey).cons builds_nil

/-- The value digests hold one namespace with one digest, that of item 0. -/
theorem builds_buildValueDigests (dom : Domain) {itemDigest : List UInt8}
    (hdigest : itemDigest.length = 32) :
    Builds (buildValueDigests dom 0 itemDigest)
      [.map [.text dom.nameSpace, .map [.unsigned 0, .bytes itemDigest]]] := by
  have hslice : (if itemDigest.length < 32 then .error (.panic "slice bounds out of range")
      else bstr (itemDigest.take 32)) = bstr itemDigest := by
    rw [if_neg hdigest.not_lt, ← hdigest, List.take_length]
  rw [buildValueDigests, hslice]
  refine Builds.bind (Builds.map rfl rfl <|
    (builds_cborUint 0).cons <| (builds_bstr itemDigest).cons builds_nil) fun inner hinner => ?_
  exact Builds.map rfl rfl <|
    (builds_tstr dom.nameSpace).cons <| (builds_of_encodes hinner).cons builds_nil

/-- **The signed object as an item.** -/
theorem builds_buildMSO (dom : Domain) {itemDigest x y coseKey : List UInt8}
    (hdigest : itemDigest.length = 32) (hkey : Encodes coseKey [coseKeyTree x y])
    (ck : CredClock) :
    Builds (buildMSO dom itemDigest coseKey ck) [msoTree dom itemDigest x y ck] :=
  Builds.map rfl rfl <|
    (builds_tstr _).cons <| (builds_tstr _).cons <|
    (builds_tstr _).cons <| (builds_tstr _).cons <|
    (builds_tstr _).cons <| (builds_tstr dom.docType).cons <|
    (builds_tstr _).cons <| (builds_buildValueDigests dom hdigest).cons <|
    (builds_tstr _).cons <| (builds_buildDeviceKeyInfo hkey).cons <|
    (builds_tstr _).cons <| (builds_buildValidityInfo ck).cons builds_nil

/-- **A COSE_Sign1 structure**: the protected header names ES256, the unprotected one is empty,
and payload and signature are as given. -/
theorem builds_cose1 {part : Go (List UInt8)} {payload : Item} (hpart : Builds part [payload])
    (sig : List UInt8) :
    Builds (cat [.ok [0x84], bstr [0xA1, 0x01, 0x26], .ok [0xA0], part, bstr sig])
      [cose1Tree payload sig] :=
  have hhead : readHead [0x84] = some (⟨4, 4, some 4⟩, []) := rfl
  Builds.array hhead <|
    (builds_bstr _).cons <| (builds_of_encodes encodes_emptyMap).cons <|
    hpart.cons <| (builds_bstr sig).cons builds_nil

/-- The issuer's part of a response: the tagged item under its namespace, and the issuer's
signature beside it. -/
theorem builds_issuerSigned (dom : Domain) {taggedItem auth itemMap tmsoContent issuerSig :
    List UInt8} (hitem : Encodes taggedItem [.tag 24 (.bytes itemMap)])
    (hauth : Encodes auth [cose1Tree (.bytes tmsoContent) issuerSig]) :
    Builds (issuerSigned dom taggedItem auth)
      [issuerSignedTree dom itemMap tmsoContent issuerSig] := by
  refine Builds.bind (Builds.map rfl rfl <| (builds_tstr dom.nameSpace).cons <|
    (Builds.array rfl <| (builds_of_encodes hitem).cons builds_nil).cons builds_nil)
    fun nameSpaces hnames => ?_
  exact Builds.map rfl rfl <|
    (builds_tstr _).cons <| (builds_of_encodes hnames).cons <|
    (builds_tstr _).cons <| (builds_of_encodes hauth).cons builds_nil

/-- The device's part of a response: no name spaces, and the device's signature with no payload of
its own. -/
theorem builds_deviceSigned (deviceSig : List UInt8) :
    Builds (deviceSigned deviceSig) [deviceSignedTree deviceSig] := by
  have hnames : Encodes ([0xD8, 0x18] ++ ([0x41] ++ [0xA0])) [.tag 24 (.bytes [0xA0])] :=
    (encodes_bytes rfl).tag rfl
  have hnull : Encodes [0xF6] [.simple 22] := rfl
  refine Builds.bind (builds_cose1 (builds_of_encodes hnull) deviceSig) fun cose hcose => ?_
  refine Builds.bind (Builds.map rfl rfl <|
    (builds_tstr _).cons <| (builds_of_encodes hcose).cons builds_nil) fun auth hauth => ?_
  exact Builds.map rfl rfl <|
    (builds_tstr _).cons <| (builds_of_encodes hnames).cons <|
    (builds_tstr _).cons <| (builds_of_encodes hauth).cons builds_nil

/-- **The response as an item.** -/
theorem builds_deviceResponse (dom : Domain) {signed signed' : List UInt8}
    {issuerSigned deviceSigned : Item} (hissuer : Encodes signed [issuerSigned])
    (hdevice : Encodes signed' [deviceSigned]) :
    Builds (deviceResponse dom signed signed') [responseTree dom issuerSigned deviceSigned] := by
  have hstatus : Encodes [0x00] [.unsigned 0] := rfl
  refine Builds.bind (Builds.map rfl rfl <|
    (builds_tstr _).cons <| (builds_tstr dom.docType).cons <|
    (builds_tstr _).cons <| (builds_of_encodes hissuer).cons <|
    (builds_tstr _).cons <| (builds_of_encodes hdevice).cons builds_nil) fun document hdoc => ?_
  exact Builds.map rfl rfl <|
    (builds_tstr _).cons <| (builds_tstr _).cons <|
    (builds_tstr _).cons <|
    (Builds.array rfl <| (builds_of_encodes hdoc).cons builds_nil).cons <|
    (builds_tstr _).cons <| (builds_of_encodes hstatus).cons builds_nil

/-! ### Parts and layout -/

/-- The parts of a credential that are hashed or signed: the map of the signed item, the signed
object, and the signature of the issuer. -/
structure Parts where
  itemMap : List UInt8
  mso : List UInt8
  issuerSig : List UInt8

/-- The item behind tag 24, with a length of one byte. -/
def Parts.taggedItem (p : Parts) : List UInt8 :=
  [0xD8, 0x18, 0x58, UInt8.ofNat p.itemMap.length] ++ p.itemMap

/-- The signed object behind tag 24, with a length of two bytes. -/
def Parts.tmsoContent (p : Parts) : List UInt8 :=
  [0xD8, 0x18, 0x59] ++ be16 p.mso.length ++ p.mso

/-- The payload as a byte string, with a length of two bytes. -/
def Parts.payload (p : Parts) : List UInt8 :=
  0x59 :: be16 p.tmsoContent.length ++ p.tmsoContent

/-- A text string with its header. -/
def textCode (s : List UInt8) : List UInt8 :=
  textHeader s.length ++ s

/-- The payload with its signature, byte by byte. -/
def Parts.issuerAuth (p : Parts) : List UInt8 :=
  [[0x84], [0x43, 0xA1, 0x01, 0x26], [0xA0], p.payload, [0x58, 0x40] ++ p.issuerSig].flatten

/-- The issuer's part of a response, byte by byte. -/
def Parts.issuerSigned (dom : Domain) (p : Parts) : List UInt8 :=
  [[0xA2], textCode (ascii "nameSpaces"),
    [[0xA1], textCode dom.nameSpace, [[0x81], p.taggedItem].flatten].flatten,
    textCode (ascii "issuerAuth"), p.issuerAuth].flatten

/-- The device's part of a response, byte by byte. -/
def deviceSignedCode (deviceSig : List UInt8) : List UInt8 :=
  [[0xA2], textCode (ascii "nameSpaces"), [0xD8, 0x18, 0x41, 0xA0],
    textCode (ascii "deviceAuth"),
    [[0xA1], textCode (ascii "deviceSignature"),
      [[0x84], [0x43, 0xA1, 0x01, 0x26], [0xA0], [0xF6], [0x58, 0x40] ++ deviceSig].flatten
      ].flatten].flatten

/-- A response, byte by byte. -/
def Parts.response (dom : Domain) (p : Parts) (deviceSig : List UInt8) : List UInt8 :=
  [[0xA3], textCode (ascii "version"), textCode (ascii "1.0"),
    textCode (ascii "documents"),
    [[0x81], [[0xA3], textCode (ascii "docType"), textCode dom.docType,
      textCode (ascii "issuerSigned"), p.issuerSigned dom,
      textCode (ascii "deviceSigned"), deviceSignedCode deviceSig].flatten].flatten,
    textCode (ascii "status"), [0x00]].flatten

/-- On a text of up to 255 bytes `tstr` does not panic, and its bytes are `textCode`. -/
theorem tstr_eq {s : List UInt8} (h : s.length < 256) : tstr s = .ok (textCode s) :=
  tstr_eq_ok_iff.mpr ⟨h, rfl⟩

/-- A string whose length takes up one byte. -/
theorem bstr_eq_byte {b : List UInt8} (h : 24 ≤ b.length) (h' : b.length < 256) :
    bstr b = .ok ([0x58, UInt8.ofNat b.length] ++ b) := by
  refine bstr_eq_ok_iff.mpr ⟨by omega, ?_⟩
  rw [byteHeader, if_neg h.not_gt, if_pos h']

/-- A string whose length takes up two bytes. -/
theorem bstr_eq_word {b : List UInt8} (h : 256 ≤ b.length) (h' : b.length < 65536) :
    bstr b = .ok (0x59 :: be16 b.length ++ b) := by
  refine bstr_eq_ok_iff.mpr ⟨h', ?_⟩
  rw [byteHeader, if_neg (by omega), if_neg h.not_gt]

/-- Tag 24 is put in front of the byte string, where that can be written. -/
theorem wrapTag24_eq {b c : List UInt8} (h : bstr b = .ok c) :
    wrapTag24 b = .ok ([0xD8, 0x18] ++ c) := by
  have hcat : cat [.ok [0xD8, 0x18], .ok c] = .ok ([0xD8, 0x18] ++ (c ++ [])) := rfl
  rw [wrapTag24, h, hcat, List.append_nil]

/-- A signature has 64 bytes, so its header is the two bytes for a length below 256. -/
theorem bstr_eq_signature {sig : List UInt8} (h : sig.length = 64) :
    bstr sig = .ok ([0x58, 0x40] ++ sig) := by
  rw [bstr_eq_byte (by omega) (by omega), h]
  rfl

/-- With a signature of 64 bytes `issuerAuth` does not panic, and its bytes are those of the
parts. -/
theorem issuerAuth_eq (p : Parts) (hsig : p.issuerSig.length = 64) :
    issuerAuth p.payload p.issuerSig = .ok p.issuerAuth := by
  rw [issuerAuth, bstr_eq_signature hsig]
  rfl

/-- With a namespace of up to 255 bytes `issuerSigned` does not panic, and its bytes are those of
the parts. -/
theorem issuerSigned_eq {dom : Domain} (hns : dom.nameSpace.length < 256) (p : Parts) :
    issuerSigned dom p.taggedItem p.issuerAuth = .ok (p.issuerSigned dom) := by
  rw [issuerSigned, tstr_eq hns]
  rfl

/-- With a signature of 64 bytes `deviceSigned` does not panic, and its bytes are the constant
ones around it. -/
theorem deviceSigned_eq {deviceSig : List UInt8} (hsig : deviceSig.length = 64) :
    deviceSigned deviceSig = .ok (deviceSignedCode deviceSig) := by
  rw [deviceSigned, bstr_eq_signature hsig]
  rfl

/-- **The response in bytes**: with a document type of up to 255 bytes `deviceResponse` does not
panic, and puts the two signed parts into its one document. -/
theorem deviceResponse_eq {dom : Domain} (hdoc : dom.docType.length < 256) (p : Parts)
    (deviceSig : List UInt8) :
    deviceResponse dom (p.issuerSigned dom) (deviceSignedCode deviceSig) =
      .ok (p.response dom deviceSig) := by
  rw [deviceResponse, tstr_eq hdoc]
  rfl

/-- The map of the signed item is short: its header takes up two bytes, and the tag two more. -/
theorem length_buildIssuerSignedItemMap {salt elemValue itemMap : List UInt8}
    (hsalt : salt.length = 16)
    (h : buildIssuerSignedItemMap 0 salt elemID elemValue = .ok itemMap) :
    itemMap.length = 78 + elemValue.length := by
  have hrandom : bstr salt = .ok (0x50 :: salt) := by
    rw [bstr_eq_ok_iff, hsalt]
    exact ⟨by decide, rfl⟩
  rw [buildIssuerSignedItemMap, hrandom] at h
  obtain rfl : [[0xA4], textCode (ascii "digestID"), [0x00], textCode (ascii "random"),
      0x50 :: salt, textCode (ascii "elementIdentifier"), textCode elemID,
      textCode (ascii "elementValue"), elemValue].flatten = itemMap := Except.ok.inj h
  have hid : (textCode (ascii "digestID")).length = 9 := rfl
  have hkey : (textCode (ascii "random")).length = 7 := rfl
  have hidentifier : (textCode (ascii "elementIdentifier")).length = 18 := rfl
  have helem : (textCode elemID).length = 12 := rfl
  have hvalue : (textCode (ascii "elementValue")).length = 13 := rfl
  simp only [List.length_flatten, List.map_cons, List.map_nil, List.sum_cons, List.sum_nil,
    List.length_cons, List.length_nil, hsalt, hid, hkey, hidentifier, helem, hvalue]
  omega

/-! ### Consistency -/

/-- What is hashed and signed is what the parts hold: the item and the signed object read as
they should, the digest in the signed object is that of the tagged item, and the issuer's
signature is over the payload. -/
structure Consistent (dom : Domain) (sha : Sha256) (sign : Sign) (issuer device : PrivateKey)
    (salt : List UInt8) (element : Item) (ck : CredClock) (p : Parts) : Prop where
  item_parses : parse p.itemMap = some (itemTree salt element)
  mso_parses : parse p.mso = some (msoTree dom (sha.sum256 p.taggedItem)
    (writeBE 32 device.x) (writeBE 32 device.y) ck)
  preimage : taggedMsoBytes p.tmsoContent = kCose1Prefix.dropLast ++ p.payload
  issuer_signs : rawSig sign issuer (sha.sum256 (taggedMsoBytes p.tmsoContent)) = .ok p.issuerSig
  /-- The lengths that take up one byte, and two. -/
  item_width : 24 ≤ p.itemMap.length ∧ p.itemMap.length < 256
  mso_width : 256 ≤ p.mso.length ∧ p.mso.length < 65536
  content_width : 256 ≤ p.tmsoContent.length ∧ p.tmsoContent.length < 65536

/-- A response that is **exactly framed**: it has the bytes of its layout, with the tagged item
and the payload in them, and they are one item with nothing left over. -/
structure Framed (dom : Domain) (sha : Sha256) (sign : Sign) (issuer device : PrivateKey)
    (salt : List UInt8) (element : Item) (ck : CredClock) (p : Parts)
    (deviceSig response : List UInt8) : Prop
    extends Consistent dom sha sign issuer device salt element ck p where
  layout : response = p.response dom deviceSig
  response_parses : parse response = some (responseTree dom
    (issuerSignedTree dom p.itemMap p.tmsoContent p.issuerSig) (deviceSignedTree deviceSig))

/-- Where `FillBytes` does not panic, it has written the number in big-endian order to the whole
width. -/
theorem fillBytes_eq_ok {width x : ℕ} {b : List UInt8} (h : fillBytes width x = .ok b) :
    b = writeBE width x := by
  rw [fillBytes] at h
  split at h <;> cases h
  rfl

/-- **What a credential is made of.** -/
theorem credentialWith_parts {dom : Domain} (hns : dom.nameSpace.length < 256) {sha : Sha256}
    {sign : Sign} {issuer device : PrivateKey} {salt elemValue : List UInt8} {element : Item}
    {ck : CredClock} (hsalt : salt.length = 16) (hvalue : parse elemValue = some element)
    (hshort : elemValue.length ≤ 64) {c : Credential}
    (h : credentialWith dom sha sign issuer device salt elemValue ck = .ok c) :
    ∃ p, Consistent dom sha sign issuer device salt element ck p ∧
      c.issuerSigned = p.issuerSigned dom ∧ c.device = device := by
  obtain ⟨itemMap, hitem, h⟩ := go_eq_ok.mp h
  obtain ⟨taggedItem, htagged, h⟩ := go_eq_ok.mp h
  obtain ⟨x, hx, h⟩ := go_eq_ok.mp h
  obtain ⟨y, hy, h⟩ := go_eq_ok.mp h
  obtain ⟨coseKey, hkey, h⟩ := go_eq_ok.mp h
  obtain ⟨mso, hmso, h⟩ := go_eq_ok.mp h
  split at h
  · cases h
  next hlong =>
  split at h
  · cases h
  next hfits =>
  obtain ⟨tmsoContent, htmso, h⟩ := go_eq_ok.mp h
  obtain ⟨issuerSig, hsig, h⟩ := go_eq_ok.mp h
  obtain ⟨payload, hpayload, h⟩ := go_eq_ok.mp h
  obtain ⟨auth, hauth, h⟩ := go_eq_ok.mp h
  obtain ⟨signed, hsigned, h⟩ := go_eq_ok.mp h
  obtain ⟨pkX, hpkX, h⟩ := go_eq_ok.mp h
  obtain ⟨pkY, hpkY, h⟩ := go_eq_ok.mp h
  obtain rfl := Except.ok.inj h
  have hlen := length_buildIssuerSignedItemMap hsalt hitem
  -- The lengths decide between the forms of the headers.
  have hbyte : 24 ≤ itemMap.length ∧ itemMap.length < 256 := by omega
  have hword : 256 ≤ mso.length ∧ mso.length < 65536 := by omega
  let p : Parts := ⟨itemMap, mso, issuerSig⟩
  obtain rfl : p.taggedItem = taggedItem :=
    Except.ok.inj ((wrapTag24_eq (bstr_eq_byte hbyte.1 hbyte.2)).symm.trans htagged)
  obtain rfl : p.tmsoContent = tmsoContent :=
    Except.ok.inj ((wrapTag24_eq (bstr_eq_word hword.1 hword.2)).symm.trans htmso)
  have hcontent : 256 ≤ p.tmsoContent.length := by
    rw [Parts.tmsoContent, List.length_append]
    exact hword.1.trans (Nat.le_add_left _ _)
  have hcontent' := (bstr_eq_ok_iff.mp hpayload).1
  obtain rfl : p.payload = payload :=
    Except.ok.inj ((bstr_eq_word hcontent hcontent').symm.trans hpayload)
  obtain rfl : p.issuerAuth = auth :=
    Except.ok.inj ((issuerAuth_eq p (length_of_rawSig hsig)).symm.trans hauth)
  obtain rfl : p.issuerSigned dom = signed :=
    Except.ok.inj ((issuerSigned_eq hns p).symm.trans hsigned)
  rw [fillBytes_eq_ok hx, fillBytes_eq_ok hy] at hkey
  refine ⟨p, ⟨?_, ?_, rfl, hsig, hbyte, hword, hcontent, hcontent'⟩, rfl, rfl⟩
  · exact parse_eq_some_iff.mpr (builds_buildIssuerSignedItemMap salt elemID hvalue itemMap hitem)
  · have hcose := builds_buildCOSEKey (length_writeBE 32 device.x) (length_writeBE 32 device.y)
      coseKey hkey
    exact parse_eq_some_iff.mpr
      (builds_buildMSO dom (sha.length_sum256 p.taggedItem) hcose ck mso hmso)

/-- `deviceResponse`, of a credential with these parts. -/
theorem present_eq {dom : Domain} (hdoc : dom.docType.length < 256) {sha : Sha256} {sign : Sign}
    {c : Credential} {p : Parts} (hissued : c.issuerSigned = p.issuerSigned dom)
    {transcript deviceSig : List UInt8}
    (hsig : deviceSignature dom sha sign c.device transcript = .ok deviceSig)
    (hlen : deviceSig.length = 64) :
    ∃ r, c.present dom sha sign transcript = .ok r ∧
      r.deviceResponse = p.response dom deviceSig := by
  rw [Credential.present, hsig, hissued]
  refine ⟨_, go_eq_ok.mpr ⟨_, rfl, go_eq_ok.mpr ⟨_, deviceSigned_eq hlen,
    go_eq_ok.mpr ⟨_, deviceResponse_eq hdoc p deviceSig, rfl⟩⟩⟩, rfl⟩

/-- The bytes of the layout are one item. -/
theorem parse_response {dom : Domain} {sha : Sha256} {sign : Sign} {issuer device : PrivateKey}
    {salt : List UInt8} {element : Item} {ck : CredClock} {p : Parts} {deviceSig : List UInt8}
    (hdoc : dom.docType.length < 256) (hns : dom.nameSpace.length < 256)
    (h : Consistent dom sha sign issuer device salt element ck p) (hlen : deviceSig.length = 64) :
    parse (p.response dom deviceSig) = some (responseTree dom
      (issuerSignedTree dom p.itemMap p.tmsoContent p.issuerSig)
      (deviceSignedTree deviceSig)) := by
  have hissuer : p.issuerSig.length = 64 := length_of_rawSig h.issuer_signs
  have hitem : Encodes p.taggedItem [.tag 24 (.bytes p.itemMap)] :=
    builds_wrapTag24 p.itemMap _ (wrapTag24_eq (bstr_eq_byte h.item_width.1 h.item_width.2))
  have hpayload : Builds (.ok p.payload) [.bytes p.tmsoContent] := by
    rw [Parts.payload, ← bstr_eq_word h.content_width.1 h.content_width.2]
    exact builds_bstr p.tmsoContent
  have hauth : Encodes p.issuerAuth [cose1Tree (.bytes p.tmsoContent) p.issuerSig] :=
    builds_cose1 hpayload p.issuerSig _ (issuerAuth_eq p hissuer)
  have hsigned := builds_issuerSigned dom hitem hauth _ (issuerSigned_eq hns p)
  have hdevice := builds_deviceSigned deviceSig _ (deviceSigned_eq hlen)
  exact parse_eq_some_iff.mpr
    (builds_deviceResponse dom hsigned hdevice _ (deviceResponse_eq hdoc p deviceSig))

/-- **A minted response is exactly framed and internally consistent**, for all names of the
document type, salts, keys, values and transcripts, whenever there is a credential: unless
signing fails, and the presentation with it, there is a response with these parts. The two
signatures are those of two calls, `sign` and `sign'`. -/
theorem minted_response_framed {dom : Domain} (hdoc : dom.docType.length < 256)
    (hns : dom.nameSpace.length < 256) (sha : Sha256) (sign sign' : Sign)
    {issuer device : PrivateKey}
    {salt elemValue transcript cose1 : List UInt8} {element : Item} {ck : CredClock}
    {c : Credential} (hsalt : salt.length = 16) (hvalue : parse elemValue = some element)
    (hshort : elemValue.length ≤ 64)
    (hcred : credentialWith dom sha sign issuer device salt elemValue ck = .ok c)
    (hauth : deviceAuthCose1 dom transcript = .ok cose1) :
    (∃ failure, rawSig sign' device (sha.sum256 cose1) = .error failure ∧
      c.present dom sha sign' transcript = .error failure) ∨
    ∃ r p deviceSig, rawSig sign' device (sha.sum256 cose1) = .ok deviceSig ∧
      c.present dom sha sign' transcript = .ok r ∧
      Framed dom sha sign issuer device salt element ck p deviceSig r.deviceResponse := by
  obtain ⟨p, hp, hissued, hdevice⟩ := credentialWith_parts hns hsalt hvalue hshort hcred
  have hsignature : deviceSignature dom sha sign' c.device transcript =
      rawSig sign' device (sha.sum256 cose1) := by
    rw [deviceSignature, hauth, hdevice]
    rfl
  cases hsig : rawSig sign' device (sha.sum256 cose1) with
  | error failure =>
      refine .inl ⟨failure, rfl, ?_⟩
      rw [Credential.present, hsignature, hsig]
      rfl
  | ok deviceSig =>
      have hlen := length_of_rawSig hsig
      obtain ⟨r, hr, hlayout⟩ := present_eq hdoc hissued (hsignature.trans hsig) hlen
      exact .inr ⟨r, p, deviceSig, rfl, hr, hp, hlayout,
        hlayout ▸ parse_response hdoc hns hp hlen⟩

/-- SHA-256 on the three inputs that are hashed for `minted_response_framed_default`, told apart
by their lengths. -/
def sampleSha : Sha256 where
  sum256 bytes := writeBE 32
    (if bytes.length = 83 then
      0x7064c0f30e12326776bc4e29588a9b3c393c107a6b3d955b96d5a12946ded4b2
    else if bytes.length = 339 then
      0x51d78162160866b08574bfea373f721b605d4d1b2b05af972519c60fc32b5703
    else
      0xe7ab83540682ac4959d5851417a360d8e6ab8a3ac2c38fe7f0e778a84a81f716)
  length_sum256 _ := length_writeBE 32 _

/-- The keys of the two smallest secrets. -/
def sampleDevice : PrivateKey where
  x := 0x6b17d1f2e12c4247f8bce6e563a440f277037d812deb33a0f4a13945d898c296
  y := 0x4fe342e2fe1a7f9b8ee7eb4a7c0f9e162bce33576b315ececbb6406837bf51f5
  d := 1

@[inherit_doc sampleDevice]
def sampleIssuer : PrivateKey where
  x := 0x7cf27b188d034f7e8a52380304b51ac3c08969e277f21b35a60b48fc47669978
  y := 0x07775510db8ed040293d9ac69f7430dbba7dade63ce982299e04b79d227873d1
  d := 2

/-- A signature of either key, over the digest that it signs. -/
def sampleSign : Sign := fun priv _ =>
  if priv.d = 2 then
    .ok (0x83fe9bb8513140519c8a44e63922d38e8cfa239d3cfaffc2e427d463377859d9,
      0x4e9deb6e5b6114f2cf84c16e2271081432c52535d821acc21cc2b238328c3f6f)
  else
    .ok (0x7658b5c4ea8ddf8d4916490d9df7aca4da5628a7c137ba80da312fd7ac09ac7f,
      0x2d0165e1fd45544fa299a3ecb729479d341ebeb2751a8ae21043af9ae05c02f4)

/-- The salt of the bytes from zero on. -/
def sampleSalt : List UInt8 :=
  (List.range 16).map UInt8.ofNat

/-- The default document over the value true: there is a credential, and its response is framed. -/
theorem minted_response_framed_default :
    ∃ c, credentialWith defaultDomain sampleSha sampleSign sampleIssuer sampleDevice sampleSalt
        [0xF5] frozenClock = .ok c ∧
      ∃ r p deviceSig,
        c.present defaultDomain sampleSha sampleSign defaultTranscript = .ok r ∧
        Framed defaultDomain sampleSha sampleSign sampleIssuer sampleDevice sampleSalt (.simple 21)
          frozenClock p deviceSig r.deviceResponse := by
  have hcred : (credentialWith defaultDomain sampleSha sampleSign sampleIssuer sampleDevice
      sampleSalt [0xF5] frozenClock).isOk = true := by decide +kernel
  have hauth : (deviceAuthCose1 defaultDomain defaultTranscript).isOk = true := by
    decide +kernel
  cases hc : credentialWith defaultDomain sampleSha sampleSign sampleIssuer sampleDevice
      sampleSalt [0xF5] frozenClock with
  | error failure =>
      rw [hc] at hcred
      cases hcred
  | ok c =>
  cases ha : deviceAuthCose1 defaultDomain defaultTranscript with
  | error failure =>
      rw [ha] at hauth
      cases hauth
  | ok cose1 =>
  refine ⟨c, rfl, ?_⟩
  obtain ⟨failure, hfail, -⟩ | ⟨r, p, deviceSig, -, hr, hframed⟩ :=
    minted_response_framed (by decide) (by decide) sampleSha sampleSign sampleSign (by decide)
      (show parse [0xF5] = some (.simple 21) from rfl) (by decide) hc ha
  · have hsigns : (rawSig sampleSign sampleDevice (sampleSha.sum256 cose1)).isOk = true := rfl
    rw [hfail] at hsigns
    cases hsigns
  · exact ⟨r, p, deviceSig, hr, hframed⟩

end Mint

end EightEen
