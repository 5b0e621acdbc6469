import EightEen.Challenge
import EightEen.Minted

/-!
# Frames

The bytes that prover and verifier hash separately, each from code of its own: the session
frame, which `src/challenge.js` and `tools/mkfixture/mint.go` write independently, and the
preimage of the device signature, whose outer length `deviceAuthCose1` computes by a formula
beside the encoder of the inner one. Nobody compares these bytes, so the encoders have to agree
at every length.

## Main results

* `sessionFrame_eq`: the two session frames are one function, injective and exactly framed.
* `Mint.deviceAuthCose1_framed`: the declared lengths of the preimage are the true ones.
-/

open Js Cbor

namespace EightEen

/-! ### The session frame -/

/-- The transcript of `issueChallenge`: `FRAME_PREFIX`, `bstrHeader(nonce.length)`, `nonce`. -/
def sessionFrame (nonce : List UInt8) : Completion (List UInt8) := do
  let header ← bstrHeader nonce.length
  .ok (framePrefix ++ header ++ nonce)

/-- A challenge carries the session frame of its nonce. -/
theorem sessionFrame_of_issueChallenge {p : Platform} {random : RandomBytes} {clock : TimeValue}
    {secret ttlMs now : Value} {c : Challenge}
    (h : issueChallenge p random clock secret ttlMs now = .ok c) :
    sessionFrame c.nonce = .ok c.transcript := by
  obtain ⟨-, -, h⟩ := bind_eq_ok.mp h
  dsimp only at h
  split at h
  · exact absurd h (Value.throwShowing_ne_ok _ _ _ _)
  split at h
  · exact absurd h (Value.throwShowing_ne_ok _ _ _ _)
  split at h
  · exact absurd h (Value.throwShowing_ne_ok _ _ _ _)
  split at h
  · cases h
  obtain ⟨header, hheader, h⟩ := bind_eq_ok.mp h
  obtain rfl := Except.ok.inj h
  rw [sessionFrame, hheader]
  rfl

/-- The header that both sides write, below the bound of both. -/
theorem bstrHeader_eq {n : ℕ} (h : n < 65536) : bstrHeader n = .ok (Mint.byteHeader n) := by
  rw [bstrHeader, Mint.byteHeader]
  split
  · next hshort => rw [(Mint.ofNat_or hshort).2]
  split
  · rfl
  · have hlow : UInt8.ofNat (n % 256) = UInt8.ofNat n := by
      rw [← UInt8.toNat_inj, UInt8.toNat_ofNat', UInt8.toNat_ofNat', Nat.mod_mod]
    rw [hlow]
    rfl

/-- The header of `tools/mkfixture`, and its panic. -/
theorem bstrLen_eq (n : ℕ) :
    Mint.bstrLen n =
      if n < 65536 then .ok (Mint.byteHeader n) else .error (.panic "bstr too long") := by
  split
  · next h => exact Mint.bstrLen_eq_ok_iff.mpr ⟨h, rfl⟩
  · next h => rw [Mint.bstrLen, if_neg (by omega), if_neg (by omega), if_neg h]

/-- The frame around a byte string. -/
def frameCode (nonce : List UInt8) : List UInt8 :=
  framePrefix ++ (Mint.byteHeader nonce.length ++ nonce)

/-- The item that a frame is. -/
def frameTree (nonce : List UInt8) : Item :=
  .array [.simple 22, .simple 22, .bytes nonce]

/-- **The frame is read back** as two nulls and the nonce, with nothing left over. -/
theorem parse_frameCode {nonce : List UInt8} (h : nonce.length < 65536) :
    parse (frameCode nonce) = some (frameTree nonce) := by
  obtain ⟨info, hhead⟩ := Mint.readHead_byteHeader h
  have hnull : Encodes [0xF6] [.simple 22] := rfl
  have hitems := hnull.cons (hnull.cons (encodes_bytes hhead))
  have hthree : readHead [0x83] = some (⟨4, 3, some 3⟩, []) := rfl
  exact parse_eq_some_iff.mpr (hitems.array hthree)

/-- `sessionTranscript` of `tools/mkfixture` writes that frame below 65536 bytes, and panics
beyond. -/
theorem sessionTranscript_eq (nonce : List UInt8) :
    Mint.sessionTranscript nonce =
      if nonce.length < 65536 then .ok (frameCode nonce)
      else .error (.panic "bstr too long") := by
  rw [Mint.sessionTranscript, Mint.bstr, bstrLen_eq]
  split
  · have hcat : Mint.cat [.ok [0x83, 0xF6, 0xF6],
        .ok (Mint.byteHeader nonce.length ++ nonce)] =
          .ok (framePrefix ++ (Mint.byteHeader nonce.length ++ nonce ++ [])) := rfl
    rw [List.append_nil] at hcat
    exact hcat
  · rfl

/-- So does the transcript of `src/challenge.js`, and it throws beyond. -/
theorem sessionFrame_eq_ite (nonce : List UInt8) :
    sessionFrame nonce =
      if nonce.length < 65536 then .ok (frameCode nonce)
      else .error (.rangeError "nonce too long for a session transcript") := by
  rw [sessionFrame]
  split
  · next h =>
      rw [bstrHeader_eq h, frameCode, ← List.append_assoc]
      rfl
  · next h =>
      rw [bstrHeader, if_neg (by omega), if_neg (by omega), if_neg h]
      rfl

/-- **The two session frames are one function.** Below 65536 bytes both sides write the same
frame, which is the array of two nulls and the nonce and of no other nonce; beyond, both
refuse. The transcript of a challenge is that frame of its nonce. -/
theorem sessionFrame_eq (nonce : List UInt8) :
    (if nonce.length < 65536 then
      ∃ frame, sessionFrame nonce = .ok frame ∧ Mint.sessionTranscript nonce = .ok frame ∧
        parse frame = some (.array [.simple 22, .simple 22, .bytes nonce]) ∧
        ∀ other, (sessionFrame other = .ok frame ∨ Mint.sessionTranscript other = .ok frame) →
          other = nonce
    else
      sessionFrame nonce = .error (.rangeError "nonce too long for a session transcript") ∧
        Mint.sessionTranscript nonce = .error (.panic "bstr too long")) ∧
    ∀ (p : Platform) (random : RandomBytes) (clock : TimeValue) (secret ttlMs now : Value)
      (c : Challenge), issueChallenge p random clock secret ttlMs now = .ok c → c.nonce = nonce →
        sessionFrame nonce = .ok c.transcript := by
  refine ⟨?_, fun p random clock secret ttlMs now c hissue hnonce =>
    hnonce ▸ sessionFrame_of_issueChallenge hissue⟩
  rw [sessionFrame_eq_ite, sessionTranscript_eq]
  split
  · next hshort =>
      refine ⟨frameCode nonce, rfl, rfl, parse_frameCode hshort, fun other h => ?_⟩
      rw [sessionFrame_eq_ite, sessionTranscript_eq] at h
      by_cases hother : other.length < 65536
      · rw [if_pos hother, if_pos hother] at h
        have hcode : frameCode other = frameCode nonce := h.elim Except.ok.inj Except.ok.inj
        have htree := parse_frameCode hother
        rw [hcode, parse_frameCode hshort] at htree
        injection htree with htree
        injection htree with hitems
        injection hitems with _ hitems
        injection hitems with _ hitems
        injection hitems with hbytes
        injection hbytes with hnonce
        exact hnonce.symm
      · rw [if_neg hother, if_neg hother] at h
        rcases h with h | h <;> cases h
  · exact ⟨rfl, rfl⟩

/-! ### The preimage of the device signature -/

namespace Mint

/-- The DeviceAuthentication bytes: the name of the structure, the transcript as it is, the
document type, and the empty name spaces behind tag 24. -/
def deviceAuthentication (dom : Domain) (transcript : List UInt8) : List UInt8 :=
  [0x84, 0x74] ++ ascii "DeviceAuthentication" ++
    (transcript ++ (textHeader dom.docType.length ++ dom.docType ++ [0xD8, 0x18, 0x41, 0xA0]))

/-- The name of the structure alone takes up 22 bytes, and what follows the transcript more
than four. -/
theorem length_deviceAuthentication (dom : Domain) (transcript : List UInt8) :
    24 ≤ (deviceAuthentication dom transcript).length := by
  have hname : ([0x84, 0x74] ++ ascii "DeviceAuthentication").length = 22 := by decide +kernel
  rw [deviceAuthentication, List.length_append, hname, List.length_append, List.length_append]
  simp only [List.length_cons, List.length_nil]
  omega

/-- The head of the preimage, up to the length of its content. -/
def cose1Head : List UInt8 :=
  [0x84, 0x6A, 0x53, 0x69, 0x67, 0x6E, 0x61, 0x74, 0x75, 0x72, 0x65, 0x31, 0x43, 0xA1, 0x01, 0x26,
    0x40]

/-- `l2`: the length that the preimage declares for its content. -/
def declaredLength (l1 : ℕ) : ℕ :=
  if 256 ≤ l1 then l1 + 5 else l1 + 4

/-- The content of the preimage: a byte string behind tag 24. -/
def taggedBytes (da : List UInt8) : List UInt8 :=
  [0xD8, 0x18] ++ (byteHeader da.length ++ da)

/-- **The declared length is the true one**, from 24 bytes on. -/
theorem length_taggedBytes {da : List UInt8} (h : 24 ≤ da.length) :
    (taggedBytes da).length = declaredLength da.length := by
  rw [taggedBytes, declaredLength, byteHeader, if_neg h.not_gt, List.length_append,
    List.length_append]
  by_cases hbyte : da.length < 256
  · rw [if_pos hbyte, if_neg hbyte.not_ge]
    simp only [List.length_cons, List.length_nil]
    omega
  · rw [if_neg hbyte, if_pos (not_lt.mp hbyte)]
    simp only [be16, List.length_cons, List.length_nil]
    omega

/-- Bytes behind tag 24 are read back as these bytes, behind that tag. -/
theorem parse_taggedBytes {da : List UInt8} (h : da.length < 65536) :
    parse (taggedBytes da) = some (.tag 24 (.bytes da)) := by
  obtain ⟨info, hhead⟩ := readHead_byteHeader h
  exact parse_eq_some_iff.mpr ((encodes_bytes hhead).tag rfl)

/-- What `da` is in the source. -/
theorem cat_deviceAuthentication {dom : Domain} (hdoc : dom.docType.length < 256)
    (transcript : List UInt8) :
    cat [.ok ([0x84, 0x74] ++ ascii "DeviceAuthentication"), .ok transcript, tstr dom.docType,
      .ok [0xD8, 0x18, 0x41, 0xA0]] = .ok (deviceAuthentication dom transcript) := by
  rw [tstr_eq hdoc]
  rfl

/-- The length that is declared can be written in two bytes exactly when the true one can. -/
theorem declaredLength_lt_iff (l1 : ℕ) : declaredLength l1 < 65536 ↔ l1 + 5 < 65536 := by
  rw [declaredLength]
  split <;> omega

/-- The preimage around its content. -/
def cose1Code (content : List UInt8) : List UInt8 :=
  cose1Head ++ (byteHeader content.length ++ content)

/-- **The preimage of the signature is read back** as the four parts of a Sig_structure, with the
content as its payload. -/
theorem parse_cose1Code {content : List UInt8} (h : content.length < 65536) :
    parse (cose1Code content) =
      some (.array [constant "Signature1", .bytes [0xA1, 0x01, 0x26], .bytes [],
        .bytes content]) := by
  obtain ⟨info, hhead⟩ := readHead_byteHeader h
  have hnameHead : readHead [0x6A] = some (⟨3, 10, some (ascii "Signature1").length⟩, []) := by
    decide +kernel
  have hname : Encodes ([0x6A] ++ ascii "Signature1") [constant "Signature1"] :=
    encodes_text hnameHead
  have hprotected : Encodes [0x43, 0xA1, 0x01, 0x26] [.bytes [0xA1, 0x01, 0x26]] := rfl
  have hexternal : Encodes [0x40] [.bytes []] := rfl
  have hitems := hname.cons <| hprotected.cons <| hexternal.cons <| encodes_bytes hhead
  have hfour : readHead [0x84] = some (⟨4, 4, some 4⟩, []) := rfl
  exact parse_eq_some_iff.mpr (hitems.array hfour)

/-- The call: its two ends. -/
theorem deviceAuthCose1_eq {dom : Domain} (hdoc : dom.docType.length < 256)
    (transcript : List UInt8) :
    deviceAuthCose1 dom transcript =
      if (deviceAuthentication dom transcript).length + 5 < 65536 then
        .ok (cose1Code (taggedBytes (deviceAuthentication dom transcript)))
      else .error (.panic "bstr too long") := by
  have hlong := length_deviceAuthentication dom transcript
  rw [deviceAuthCose1, cat_deviceAuthentication hdoc]
  refine (if_neg hlong.not_gt).trans ?_
  change cat [.ok cose1Head, bstrLen (declaredLength (deviceAuthentication dom transcript).length),
    .ok [0xD8, 0x18], bstrLen (deviceAuthentication dom transcript).length,
    .ok (deviceAuthentication dom transcript)] = _
  rw [← length_taggedBytes hlong, bstrLen_eq, length_taggedBytes hlong, bstrLen_eq]
  split
  · next h =>
      have hsum := (declaredLength_lt_iff _).mp h
      rw [if_pos hsum, if_pos (by omega), ← length_taggedBytes hlong]
      change Except.ok (cose1Head ++ (_ ++ ([0xD8, 0x18] ++ (_ ++ (_ ++ []))))) = _
      rw [List.append_nil]
      rfl
  · next h =>
      rw [if_neg fun hsum => h ((declaredLength_lt_iff _).mpr hsum)]
      rfl

/-- **The preimage of the device signature is exactly framed.** The call never returns its error;
it panics exactly when the length that it declares overflows, and what it returns otherwise is
the array of the name, the protected header, no external data, and a content that is the
DeviceAuthentication bytes behind tag 24, of the declared length. -/
theorem deviceAuthCose1_framed {dom : Domain} (hdoc : dom.docType.length < 256)
    (transcript : List UInt8) :
    let da := deviceAuthentication dom transcript
    (∀ message, deviceAuthCose1 dom transcript ≠ .error (.err message)) ∧
      ((∃ message, deviceAuthCose1 dom transcript = .error (.panic message)) ↔
        65536 ≤ da.length + 5) ∧
      (da.length + 5 < 65536 → ∃ cose1 content, deviceAuthCose1 dom transcript = .ok cose1 ∧
        parse cose1 = some (.array [constant "Signature1", .bytes [0xA1, 0x01, 0x26], .bytes [],
          .bytes content]) ∧
        content = [0xD8, 0x18] ++ (byteHeader da.length ++ da) ∧
        parse content = some (.tag 24 (.bytes da)) ∧
        content.length = if 256 ≤ da.length then da.length + 5 else da.length + 4) := by
  have hlong := length_deviceAuthentication dom transcript
  intro da
  rw [deviceAuthCose1_eq hdoc]
  by_cases hsum : da.length + 5 < 65536
  · have hcontent : (taggedBytes da).length < 65536 := by
      rw [length_taggedBytes hlong]
      exact (declaredLength_lt_iff _).mpr hsum
    rw [if_pos hsum]
    refine ⟨fun message h => (by cases h), ⟨fun ⟨message, h⟩ => (by cases h), fun h => ?_⟩,
      fun _ => ⟨_, taggedBytes da, rfl, parse_cose1Code hcontent, rfl, ?_, ?_⟩⟩
    · omega
    · exact parse_taggedBytes (by omega)
    · exact length_taggedBytes hlong
  · rw [if_neg hsum]
    exact ⟨fun message h => (by cases h), ⟨fun _ => not_lt.mp hsum, fun _ => ⟨_, rfl⟩⟩,
      fun h => absurd h hsum⟩

/-- The default document over the default transcript, whose DeviceAuthentication takes up 52
bytes. -/
theorem deviceAuthCose1_framed_default :
    (deviceAuthentication defaultDomain defaultTranscript).length = 52 ∧
      ∃ cose1 content, deviceAuthCose1 defaultDomain defaultTranscript = .ok cose1 ∧
        parse cose1 = some (.array [constant "Signature1", .bytes [0xA1, 0x01, 0x26], .bytes [],
          .bytes content]) ∧ content.length = 56 := by
  have hlen : (deviceAuthentication defaultDomain defaultTranscript).length = 52 := by
    decide +kernel
  obtain ⟨-, -, hframed⟩ :=
    deviceAuthCose1_framed (show defaultDomain.docType.length < 256 by decide) defaultTranscript
  obtain ⟨cose1, content, hcall, hparse, -, -, hcontent⟩ := hframed (by rw [hlen]; decide)
  refine ⟨hlen, cose1, content, hcall, hparse, ?_⟩
  rw [hcontent, hlen]
  rfl

end Mint

end EightEen
