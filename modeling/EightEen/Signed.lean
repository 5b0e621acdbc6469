import EightEen.Concurrent
import EightEen.Frames
import Mathlib.Data.Finset.Card

/-!
# What the Device Signs

The device signs one string of bytes for a presentation. The transcript stands in it as it was
given, without a length of its own, and the document type behind it: what keeps the two apart is
that a transcript is a CBOR item, which ends where it ends. A verifier that asks for single use
recognizes its own frames and nothing else, so for what it spends this is always so. Whoever takes
any bytes for a transcript has to fix the document type.

## Main results

* `Mint.signed_bytes_bind`: what the device signs determines the session and the document type.
* `accepts_le_signed`: no more checks are accepted than strings have been signed.
-/

open Js Cbor Transition

namespace EightEen

namespace Mint

theorem parse_textCode {s : List UInt8} (h : s.length < 256) :
    parse (textCode s) = some (.text s) := by
  obtain ⟨info, hhead⟩ := readHead_textHeader h
  exact parse_eq_some_iff.mpr (encodes_text hhead)

theorem textCode_inj {s s' : List UInt8} (h : s.length < 256) (h' : s'.length < 256)
    (heq : textCode s = textCode s') : s = s' := by
  have hparse := parse_textCode h
  rw [heq, parse_textCode h'] at hparse
  exact (Item.text.inj (Option.some.inj hparse)).symm

theorem taggedBytes_inj {da da' : List UInt8} (h : da.length < 65536) (h' : da'.length < 65536)
    (heq : taggedBytes da = taggedBytes da') : da = da' := by
  have hparse := parse_taggedBytes h
  rw [heq, parse_taggedBytes h'] at hparse
  exact (Item.bytes.inj (Item.tag.inj (Option.some.inj hparse)).2).symm

theorem cose1Code_inj {content content' : List UInt8} (h : content.length < 65536)
    (h' : content'.length < 65536) (heq : cose1Code content = cose1Code content') :
    content = content' := by
  have hparse := parse_cose1Code h
  rw [heq, parse_cose1Code h'] at hparse
  have hitems := Item.array.inj (Option.some.inj hparse)
  simp only [List.cons.injEq, Item.bytes.injEq, true_and, and_true] at hitems
  exact hitems.symm

/-- Nothing is signed for a document type that has no header. -/
theorem docType_of_signed {dom : Domain} {transcript signed : List UInt8}
    (h : deviceAuthCose1 dom transcript = .ok signed) : dom.docType.length < 256 := by
  rw [deviceAuthCose1] at h
  obtain ⟨da, hda, -⟩ := go_eq_ok.mp h
  cases hcode : tstr dom.docType with
  | ok code => exact (tstr_eq_ok_iff.mp hcode).1
  | error failure =>
      rw [hcode] at hda
      cases hda

/-- What is signed, and that both of its lengths are in range. -/
theorem signed_eq {dom : Domain} {transcript signed : List UInt8}
    (h : deviceAuthCose1 dom transcript = .ok signed) :
    signed = cose1Code (taggedBytes (deviceAuthentication dom transcript)) ∧
      (deviceAuthentication dom transcript).length < 65536 ∧
      (taggedBytes (deviceAuthentication dom transcript)).length < 65536 := by
  have hdoc := docType_of_signed h
  rw [deviceAuthCose1_eq hdoc] at h
  split at h
  · next hsum =>
      refine ⟨(Except.ok.inj h).symm, by omega, ?_⟩
      rw [length_taggedBytes (length_deviceAuthentication dom transcript)]
      exact (declaredLength_lt_iff _).mpr hsum
  · cases h

/-- What the device signs determines the DeviceAuthentication bytes. -/
theorem deviceAuthentication_of_signed {dom dom' : Domain}
    {transcript transcript' signed : List UInt8}
    (h : deviceAuthCose1 dom transcript = .ok signed)
    (h' : deviceAuthCose1 dom' transcript' = .ok signed) :
    deviceAuthentication dom transcript = deviceAuthentication dom' transcript' := by
  obtain ⟨heq, hda, hcontent⟩ := signed_eq h
  obtain ⟨heq', hda', hcontent'⟩ := signed_eq h'
  exact taggedBytes_inj hda hda' (cose1Code_inj hcontent hcontent' (heq.symm.trans heq'))

/-- With one document type, the transcript stands between the same bytes. -/
theorem transcript_of_deviceAuthentication {dom dom' : Domain}
    (hsame : dom.docType = dom'.docType) {transcript transcript' : List UInt8}
    (heq : deviceAuthentication dom transcript = deviceAuthentication dom' transcript') :
    transcript = transcript' := by
  rw [deviceAuthentication, deviceAuthentication, hsame] at heq
  exact List.append_cancel_right (List.append_cancel_left heq)

/-- Two transcripts that are items end where they end, and the document types behind them are
the same. -/
theorem deviceAuthentication_inj {dom dom' : Domain} (hdoc : dom.docType.length < 256)
    (hdoc' : dom'.docType.length < 256) {transcript transcript' : List UInt8}
    (hitem : (parse transcript).isSome) (hitem' : (parse transcript').isSome)
    (heq : deviceAuthentication dom transcript = deviceAuthentication dom' transcript') :
    transcript = transcript' ∧ dom.docType = dom'.docType := by
  obtain ⟨item, hitem⟩ := Option.isSome_iff_exists.mp hitem
  obtain ⟨item', hitem'⟩ := Option.isSome_iff_exists.mp hitem'
  obtain ⟨htranscript, -, hrest⟩ := (parse_eq_some_iff.mp hitem).append_inj
    (parse_eq_some_iff.mp hitem') rfl (List.append_cancel_left heq)
  exact ⟨htranscript, textCode_inj hdoc hdoc' (List.append_cancel_right hrest)⟩

end Mint

/-- A frame around a nonce of ours is an item. -/
theorem parse_frame {p : Platform} {transcript secret now : Value} {r : Recognized}
    (h : inspectChallenge p transcript secret now = some r) {t : List UInt8}
    (hbytes : toBuffer transcript = some t) : (parse t).isSome := by
  obtain ⟨-, payload, hpayload, hbuffer, -⟩ := (inspectChallenge_eq_some_iff _ _ _ _ _).mp h
  obtain rfl := Option.some.inj (hbytes.symm.trans hbuffer)
  have hlen : (nonceOf p secret payload).length = nonceLen := by
    rw [nonceOf, List.length_append, hpayload, length_hmac]
    rfl
  have hcode : frame (nonceOf p secret payload) = frameCode (nonceOf p secret payload) := by
    rw [frame, frameCode, hlen, List.append_assoc]
    rfl
  rw [hcode, parse_frameCode (by rw [hlen]; decide)]
  rfl

namespace Mint

/-- **What the device signs determines the session and the document type.** For one document type
it determines the transcript, whatever bytes that is. For all of them it does so for transcripts
that are items; and of the challenges that a verifier recognizes, the device signs the same bytes
for two exactly when they are spent under one key, in a presentation of one document type. -/
theorem signed_bytes_bind {dom dom' : Domain} {t t' signed signed' : List UInt8}
    (h : deviceAuthCose1 dom t = .ok signed) (h' : deviceAuthCose1 dom' t' = .ok signed') :
    (dom.docType = dom'.docType → (signed = signed' ↔ t = t')) ∧
      ((parse t).isSome → (parse t').isSome →
        (signed = signed' ↔ t = t' ∧ dom.docType = dom'.docType)) ∧
      ∀ (p : Platform) (secret now now' transcript transcript' : Value) (r r' : Recognized),
        toBuffer transcript = some t → toBuffer transcript' = some t' →
        inspectChallenge p transcript secret now = some r →
        inspectChallenge p transcript' secret now' = some r' →
        (signed = signed' ↔ r.nonceKey = r'.nonceKey ∧ dom.docType = dom'.docType) := by
  have hsame : t = t' → dom.docType = dom'.docType → signed = signed' := by
    rintro rfl hdom
    rw [deviceAuthCose1, hdom] at h
    exact Except.ok.inj (h.symm.trans h')
  have hitems (hitem : (parse t).isSome) (hitem' : (parse t').isSome) :
      signed = signed' ↔ t = t' ∧ dom.docType = dom'.docType := by
    refine ⟨?_, fun hboth => hsame hboth.1 hboth.2⟩
    rintro rfl
    exact deviceAuthentication_inj (docType_of_signed h) (docType_of_signed h') hitem hitem'
      (deviceAuthentication_of_signed h h')
  refine ⟨fun hdom => ⟨?_, fun ht => hsame ht hdom⟩, hitems, ?_⟩
  · rintro rfl
    exact transcript_of_deviceAuthentication hdom (deviceAuthentication_of_signed h h')
  · intro p secret now now' transcript transcript' r r' hbytes hbytes' hr hr'
    rw [hitems (parse_frame hr hbytes) (parse_frame hr' hbytes')]
    refine and_congr_left fun _ => ⟨?_, fun hkey => ?_⟩
    · rintro rfl
      have hagain := inspectChallenge_congr hr (hbytes.trans hbytes'.symm) now'
      rw [hr', Option.some.injEq] at hagain
      rw [hagain]
    · have hbuffers := inspectChallenge_nonceKey_inj hr hr' hkey
      rw [hbytes, hbytes'] at hbuffers
      exact Option.some.inj hbuffers

/-- The session of the worked examples, and a presentation outside any session. -/
theorem signed_bytes_bind_sampleTranscript :
    ∃ signed signed', deviceAuthCose1 defaultDomain sampleTranscript = .ok signed ∧
      deviceAuthCose1 defaultDomain defaultTranscript = .ok signed' ∧ signed ≠ signed' := by
  have hdoc : defaultDomain.docType.length < 256 := by decide
  have hlen {t : List UInt8} (h : (deviceAuthentication defaultDomain t).length + 5 < 65536) :
      ∃ signed, deviceAuthCose1 defaultDomain t = .ok signed := by
    rw [deviceAuthCose1_eq hdoc, if_pos h]
    exact ⟨_, rfl⟩
  obtain ⟨signed, h⟩ := hlen (t := sampleTranscript) (by decide +kernel)
  obtain ⟨signed', h'⟩ := hlen (t := defaultTranscript) (by decide +kernel)
  have hbind := (signed_bytes_bind h h').2.1 (by decide +kernel) (by decide +kernel)
  exact ⟨signed, signed', h, h', fun heq => absurd (hbind.mp heq).1 (by decide +kernel)⟩

/-- For bytes that are no items the document type has to be fixed: the last byte of one transcript
can be taken for the head of another document type. -/
example :
    (deviceAuthCose1 { docType := [0x60], nameSpace := [] } []).toOption.isSome = true ∧
      deviceAuthCose1 { docType := [0x60], nameSpace := [] } [] =
        deviceAuthCose1 { docType := [], nameSpace := [] } [0x61] := by
  have hsame : deviceAuthentication { docType := [0x60], nameSpace := [] } [] =
      deviceAuthentication { docType := [], nameSpace := [] } [0x61] := by decide +kernel
  rw [deviceAuthCose1_eq (by decide), deviceAuthCose1_eq (by decide), hsame]
  exact ⟨by decide +kernel, rfl⟩

end Mint

/-! ### What the door grants -/

variable {p : Platform} {secret : Value} {S : NonceStore}

/-- One of the strings is what a device signs, in a presentation of some document type, for the
session of `nonce`. -/
def SignedFor (signed : Finset (List UInt8)) (nonce : List UInt8) : Prop :=
  ∃ dom : Mint.Domain, ∃ bytes ∈ signed, Mint.deviceAuthCose1 dom (frame nonce) = .ok bytes

/-- The nonce of an accepted check is one that the verifiers recognize. -/
theorem Consistent.parse_of_admitted {s : System secret S} (h : Consistent p s) {i : ℕ}
    {nonce : List UInt8} (hadmitted : Admitted s i nonce) : (parse (frame nonce)).isSome := by
  obtain ⟨a, ha, -, -, hkey⟩ := (h.admitted_iff i nonce).mp hadmitted
  obtain ⟨c, raw, verdict, -, hafter, -⟩ := h.arrived a ha
  obtain ⟨-, -, r, ⟨hrecognized, -⟩, -⟩ := c.spending_spec hafter
  exact parse_frame hrecognized ((c.boundTo_iff hafter nonce).mpr hkey)

/-- **No more checks are accepted than strings have been signed**, in a run over a store that
keeps its contract and in which no spend is late. What an accepted proof shows is that a device
has signed for its session; how many devices there are, and which documents they hold, does not
matter, nor how the checks are spread over replicas and time. -/
theorem accepts_le_signed (hS : S.KeepsContract) {s : System secret S}
    {events : List (Event secret)}
    (hrun : exec (step p) (System.init secret S) events = some s) (htimely : Timely p s)
    {signed : Finset (List UInt8)}
    (hsound : ∀ i nonce, Admitted s i nonce → SignedFor signed nonce) {accepted : Finset ℕ}
    (haccepted : ∀ i ∈ accepted, ∃ nonce, Admitted s i nonce) :
    accepted.card ≤ signed.card := by
  have h := consistent_of_run hrun
  have hrec := recorded_of_run hS hrun
  choose! nonce hadmitted using haccepted
  choose! dom bytes hmem hbytes using
    fun i (hi : i ∈ accepted) => hsound i (nonce i) (hadmitted i hi)
  refine Finset.card_le_card_of_injOn bytes hmem fun i hi j hj heq => ?_
  -- Two checks with one string have one nonce, and each of them is the first to spend it.
  have hsame := Mint.deviceAuthentication_of_signed (hbytes i hi) (heq ▸ hbytes j hj)
  obtain ⟨hframe, -⟩ := Mint.deviceAuthentication_inj (Mint.docType_of_signed (hbytes i hi))
    (Mint.docType_of_signed (hbytes j hj)) (h.parse_of_admitted (hadmitted i hi))
    (h.parse_of_admitted (hadmitted j hj)) hsame
  have hnonce : nonce i = nonce j := frame_injective hframe
  obtain ⟨a, ha, hcall⟩ := h.firstOf_of_admitted hrec htimely (hadmitted i hi)
  obtain ⟨b, hb, hcall'⟩ := h.firstOf_of_admitted hrec htimely (hadmitted j hj)
  rw [hnonce, hb] at ha
  rw [← hcall, ← hcall', Option.some.inj ha]

/-- The nonce of a second challenge, which expires with the first. -/
def secondNonce : List UInt8 :=
  nonceOf .sample sampleSecret (List.replicate 16 43 ++ samplePayload.drop 16)

/-- A proof that is bound to the second challenge. -/
def secondProof : Value :=
  .object [("transcript", .binary .uint8Array (frame secondNonce)),
    ("deviceResponse", .binary .uint8Array [0])]

/-- Two visitors with a challenge each, at the same time. -/
def twoVisitors : List (Event sampleSecret) :=
  [⟨sampleTime 0, .begin 0 sampleReplica sampleProof⟩,
    ⟨sampleTime 1, .begin 1 sampleReplica secondProof⟩,
    ⟨sampleTime 2, .reply 1 sampleReply⟩,
    ⟨sampleTime 3, .reply 0 sampleReply⟩,
    ⟨sampleTime 4, .arrive 1⟩,
    ⟨sampleTime 5, .arrive 0⟩]

/-- What a device signs for a nonce of this length. -/
theorem exists_signed {nonce : List UInt8} (h : (Mint.deviceAuthentication Mint.defaultDomain
    (frame nonce)).length + 5 < 65536) :
    ∃ bytes, Mint.deviceAuthCose1 Mint.defaultDomain (frame nonce) = .ok bytes := by
  rw [Mint.deviceAuthCose1_eq (by decide), if_pos h]
  exact ⟨_, rfl⟩

/-- Both visitors are let in, and two strings have been signed for them. -/
theorem accepts_le_signed_twoVisitors :
    ∃ s bytes bytes', exec (step .sample) (System.init sampleSecret inMemoryNonceStore)
        twoVisitors = some s ∧ Admitted s 0 sampleNonce ∧ Admitted s 1 secondNonce ∧
      Mint.deviceAuthCose1 Mint.defaultDomain (frame sampleNonce) = .ok bytes ∧
      Mint.deviceAuthCose1 Mint.defaultDomain (frame secondNonce) = .ok bytes' ∧
      ({0, 1} : Finset ℕ).card ≤ ({bytes, bytes'} : Finset (List UInt8)).card := by
  obtain ⟨s, hs, hfirst, hsecond, a, b, harrivals, hakey, hbkey⟩ :
      ∃ s, exec (step .sample) (System.init sampleSecret inMemoryNonceStore) twoVisitors =
          some s ∧ Admitted s 0 sampleNonce ∧ Admitted s 1 secondNonce ∧
        ∃ a b, s.arrivals = [a, b] ∧ a.key = keyOf secondNonce ∧ b.key = keyOf sampleNonce :=
    ⟨_, rfl, ⟨_, _, _, rfl, rfl, rfl, _, rfl, rfl⟩, ⟨_, _, _, rfl, rfl, rfl, _, rfl, rfl⟩,
      _, _, rfl, rfl, rfl⟩
  have h := consistent_of_run hs
  have hspends : ((exec (step .sample) (System.init sampleSecret inMemoryNonceStore)
      twoVisitors).map fun s => s.arrivals.map fun a => (a.time, a.request.ttlMs)) =
      some [(1700000000004, 299999), (1700000000005, 300000)] := by
    decide +kernel
  rw [hs, Option.map_some, harrivals, Option.some.injEq] at hspends
  obtain ⟨ha, hb⟩ : (a.time, a.request.ttlMs) = (1700000000004, 299999) ∧
      (b.time, b.request.ttlMs) = (1700000000005, 300000) := by
    simpa only [List.map_cons, List.map_nil, List.cons.injEq, and_true] using hspends
  simp only [Prod.mk.injEq] at ha hb
  have htimely : Timely .sample s := by
    refine h.timely_of_close fun x hx y hy => ?_
    rw [harrivals] at hx hy
    rcases List.mem_pair.mp hx with rfl | rfl <;>
      rcases List.mem_pair.mp hy with rfl | rfl <;> omega
  obtain ⟨bytes, hbytes⟩ : ∃ bytes, Mint.deviceAuthCose1 Mint.defaultDomain
    (frame sampleNonce) = .ok bytes := exists_signed (by decide +kernel)
  obtain ⟨bytes', hbytes'⟩ : ∃ bytes, Mint.deviceAuthCose1 Mint.defaultDomain
    (frame secondNonce) = .ok bytes := exists_signed (by decide +kernel)
  refine ⟨s, bytes, bytes', hs, hfirst, hsecond, hbytes, hbytes',
    accepts_le_signed inMemoryNonceStore_keepsContract hs htimely (fun i nonce hi => ?_)
      fun i hi => ?_⟩
  · obtain ⟨x, hx, -, -, hnonce⟩ := (h.admitted_iff i nonce).mp hi
    rcases List.mem_pair.mp (harrivals ▸ hx) with rfl | rfl
    · rw [keyOf_injective (hnonce.symm.trans hakey)]
      exact ⟨Mint.defaultDomain, bytes', by simp, hbytes'⟩
    · rw [keyOf_injective (hnonce.symm.trans hbkey)]
      exact ⟨Mint.defaultDomain, bytes, by simp, hbytes⟩
  · rcases Finset.mem_insert.mp hi with rfl | hone
    · exact ⟨sampleNonce, hfirst⟩
    · rw [Finset.mem_singleton.mp hone]
      exact ⟨secondNonce, hsecond⟩

end EightEen
