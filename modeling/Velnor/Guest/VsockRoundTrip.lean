/-
  The codec of the host/guest protocol is exact: `layout` says what the payload
  of a message is, encoding produces the frame around it, and decoding accepts
  that frame and no other bytes.

  The one asymmetry is the stream of `stdio`.  Its type is any byte; encoding
  writes it as it is, and decoding refuses all but the two known tags.
-/
import Velnor.Guest.VsockProtocol
import Velnor.Relational.Script

namespace Velnor.Guest

open Wire VsockMessage
open List hiding Vector
open Relational (pure_eq_ok)

/-! ## Fields -/

theorem readBytes_exact : Exact readBytes (sizedBytes 4) (fun bytes => bytes.length < 256 ^ 4) :=
  readSized_exact VsockCodecError.truncated 4

theorem fromUTF8?_eq_some_iff {bytes : List UInt8} {value : String} :
    String.fromUTF8? bytes.toByteArray = some value ↔ bytes = utf8 value := by
  rw [String.fromUTF8?, utf8]
  constructor
  · intro h
    split_ifs at h with hvalid
    cases h
    rw [String.fromUTF8, data_toByteArray]
  · rintro rfl
    have hbytes : value.toByteArray.data.toList.toByteArray = value.toByteArray := by
      apply ByteArray.ext
      rw [data_toByteArray]
    rw [hbytes, dif_pos value.isValidUTF8]
    rfl

theorem readString_exact :
    Exact readString (fun value => sizedBytes 4 (utf8 value))
      (fun value => (utf8 value).length < 256 ^ 4) := by
  constructor
  intro _ _ _
  rw [readString]
  constructor
  · intro h
    obtain ⟨bytes, _, hlen, rfl, hvalue⟩ := readBytes_exact.of_bind h
    cases hutf8 : String.fromUTF8? bytes.toByteArray with
    | none =>
      rw [hutf8] at hvalue
      cases hvalue
    | some =>
      rw [hutf8] at hvalue
      cases hvalue
      rw [fromUTF8?_eq_some_iff.mp hutf8] at hlen ⊢
      exact ⟨hlen, rfl⟩
  · rintro ⟨hlen, rfl⟩
    rw [readBytes_exact.run_bind hlen, fromUTF8?_eq_some_iff.mpr rfl]
    rfl

/-- A word read into a type whose values are the numbers below `256 ^ width`. -/
theorem word_exact {α : Type} (width : Nat) {ofNat : Nat → α} {toNat : α → Nat}
    (hlt : ∀ a, toNat a < 256 ^ width) (hof : ∀ a, ofNat (toNat a) = a)
    (hto : ∀ n, n < 256 ^ width → toNat (ofNat n) = n) :
    Exact (do let value ← readWord VsockCodecError.truncated width; return ofNat value)
      (fun a => beBytes width (toNat a)) (fun _ => True) := by
  have hvalue : ∀ (n : Nat) (a : α),
      n < 256 ^ width ∧ (Except.ok (ofNat n) : Except VsockCodecError α) = .ok a
        ↔ True ∧ n = toNat a := by
    intro n a
    constructor
    · rintro ⟨hn, h⟩
      cases h
      exact ⟨trivial, (hto n hn).symm⟩
    · rintro ⟨-, rfl⟩
      exact ⟨hlt a, by rw [hof]⟩
  exact (readWord_exact VsockCodecError.truncated width).convert hvalue

theorem readU8_exact : Exact readU8 (fun value => [value]) (fun _ => True) := by
  have hword := word_exact 1 UInt8.toNat_lt (fun _ => UInt8.ofNat_toNat)
    (fun _ hn => UInt8.toNat_ofNat_of_lt' hn)
  have hbytes : (fun value : UInt8 => beBytes 1 value.toNat) = fun value => [value] := by
    funext value
    rw [beBytes, beBytes, UInt8.ofNat_toNat, nil_append]
  rw [hbytes] at hword
  exact hword

theorem readU64_exact : Exact readU64 writeU64 (fun _ => True) :=
  word_exact 8 UInt64.toNat_lt (fun _ => UInt64.ofNat_toNat)
    (fun _ hn => UInt64.toNat_ofNat_of_lt' hn)

theorem readI32_exact : Exact readI32 writeI32 (fun _ => True) := by
  refine word_exact 4 (fun value => value.toBitVec.isLt) (fun value => ?_) (fun _ hn => ?_)
  · rw [BitVec.ofNat_toNat, BitVec.setWidth_eq, Int32.ofBitVec_toBitVec]
  · rw [Int32.toBitVec_ofBitVec]
    exact Nat.mod_eq_of_lt hn

theorem readBool_exact : Exact readBool writeBool (fun _ => True) := by
  constructor
  intro _ value rest
  constructor
  · intro h
    obtain ⟨_, _, -, rfl, hvalue⟩ := readU8_exact.of_bind h
    split_ifs at hvalue with hzero hone
    · cases hvalue
      rw [hzero]
      exact ⟨trivial, rfl⟩
    · cases hvalue
      rw [hone]
      exact ⟨trivial, rfl⟩
    · exact absurd hvalue throw_ok
  · rintro ⟨-, rfl⟩
    cases value with
    | false | true => exact readU8_exact.run_bind trivial rest

theorem tryFrom_asStr (conclusion : JobConclusion) :
    JobConclusion.tryFrom conclusion.asStr = some conclusion := by
  cases conclusion <;> rfl

theorem tryFrom_eq_some_iff {raw : String} {conclusion : JobConclusion} :
    JobConclusion.tryFrom raw = some conclusion ↔ raw = conclusion.asStr := by
  constructor
  · intro h
    unfold JobConclusion.tryFrom at h
    split_ifs at h with hraw hraw hraw hraw hraw hraw hraw hraw hraw <;> cases h <;> exact hraw
  · rintro rfl
    exact tryFrom_asStr conclusion

/-! ## Payloads -/

namespace VsockMessage

/-- The payload of a message. -/
def layout : VsockMessage → List UInt8
  | guestIdentity isolationId generation restored =>
    sizedBytes 4 (utf8 isolationId) ++ writeU64 generation ++ writeBool restored
  | guestReady isolationId generation dockerHealthy jobCredentialsAbsent sessionChallenge =>
    sizedBytes 4 (utf8 isolationId) ++ writeU64 generation ++ writeBool dockerHealthy
      ++ writeBool jobCredentialsAbsent ++ sizedBytes 4 (utf8 sessionChallenge)
  | deliverPlan jobId isolationId generation executionNonce planSha256 planBytes =>
    sizedBytes 4 (utf8 jobId) ++ sizedBytes 4 (utf8 isolationId) ++ writeU64 generation
      ++ sizedBytes 4 (utf8 executionNonce) ++ sizedBytes 4 (utf8 planSha256)
      ++ sizedBytes 4 planBytes
  | importBlob digestSha256 bytes => sizedBytes 4 (utf8 digestSha256) ++ sizedBytes 4 bytes
  | stepStarted stepId => sizedBytes 4 (utf8 stepId)
  | stepCompleted stepId exitCode skipped =>
    sizedBytes 4 (utf8 stepId) ++ writeI32 exitCode ++ writeBool skipped
  | stdio stream bytes => [stream] ++ sizedBytes 4 bytes
  | commandFile path bytes => sizedBytes 4 (utf8 path) ++ sizedBytes 4 bytes
  | annotationText text => sizedBytes 4 (utf8 text)
  | cancel => []
  | telemetry cpuMillis memoryBytes => writeU64 cpuMillis ++ writeU64 memoryBytes
  | resultExport digestSha256 bytes => sizedBytes 4 (utf8 digestSha256) ++ sizedBytes 4 bytes
  | teardownAck jobId isolationId generation executionNonce planSha256 =>
    sizedBytes 4 (utf8 jobId) ++ sizedBytes 4 (utf8 isolationId) ++ writeU64 generation
      ++ sizedBytes 4 (utf8 executionNonce) ++ sizedBytes 4 (utf8 planSha256)
  | jobCompleted conclusion exitCode =>
    sizedBytes 4 (utf8 conclusion.asStr) ++ writeI32 exitCode
  | prepareSnapshot => []
  | snapshotReady => []

/-- The fields with a length before them. -/
def sized : VsockMessage → List (List UInt8)
  | guestIdentity isolationId .. => [utf8 isolationId]
  | guestReady isolationId _ _ _ sessionChallenge => [utf8 isolationId, utf8 sessionChallenge]
  | deliverPlan jobId isolationId _ executionNonce planSha256 planBytes =>
    [utf8 jobId, utf8 isolationId, utf8 executionNonce, utf8 planSha256, planBytes]
  | importBlob digestSha256 bytes => [utf8 digestSha256, bytes]
  | stepStarted stepId => [utf8 stepId]
  | stepCompleted stepId .. => [utf8 stepId]
  | stdio _ bytes => [bytes]
  | commandFile path bytes => [utf8 path, bytes]
  | annotationText text => [utf8 text]
  | cancel => []
  | telemetry .. => []
  | resultExport digestSha256 bytes => [utf8 digestSha256, bytes]
  | teardownAck jobId isolationId _ executionNonce planSha256 =>
    [utf8 jobId, utf8 isolationId, utf8 executionNonce, utf8 planSha256]
  | jobCompleted conclusion _ => [utf8 conclusion.asStr]
  | prepareSnapshot => []
  | snapshotReady => []

/-- Every length fits its four bytes. -/
def Fits (message : VsockMessage) : Prop :=
  message.sized.Forall (fun bytes => bytes.length < 256 ^ 4)

/-- The stream of `stdio` is one of the two tags. -/
def StreamKnown : VsockMessage → Prop
  | stdio stream _ => stream = stdoutStream ∨ stream = stderrStream
  | _ => True

end VsockMessage

variable {message : VsockMessage} {payload : List UInt8}

variable {β : Type} {kind : Nat} {out value : List UInt8}

/-- What is read as a message of a kind is the payload of one. -/
theorem readPayload_sound {input rest : List UInt8}
    (h : (readPayload kind).run input = .ok (message, rest)) :
    (message.kind = kind ∧ message.Fits ∧ message.StreamKnown)
      ∧ input = message.layout ++ rest := by
  unfold readPayload at h
  -- one case for each kind, in the order of the source
  split at h
  case h_17 => exact absurd h throw_ok
  all_goals simp only [readString_exact.bind_ok_iff, readBytes_exact.bind_ok_iff,
    readU64_exact.bind_ok_iff, readBool_exact.bind_ok_iff, readI32_exact.bind_ok_iff,
    readU8_exact.bind_ok_iff, StateT.run_pure, true_and] at h
  case h_1 | h_6 =>
    obtain ⟨_, _, hid, rfl, _, _, rfl, _, _, rfl, rfl, rfl⟩ := h
    exact ⟨⟨rfl, hid, trivial⟩, by simp only [layout, append_assoc]⟩
  case h_2 =>
    obtain ⟨_, _, hid, rfl, _, _, rfl, _, _, rfl, _, _, rfl, _, _, hchallenge, rfl, rfl, rfl⟩ := h
    exact ⟨⟨rfl, ⟨hid, hchallenge⟩, trivial⟩, by simp only [layout, append_assoc]⟩
  case h_3 =>
    obtain ⟨_, _, hjob, rfl, _, _, hid, rfl, _, _, rfl, _, _, hnonce, rfl, _, _, hsha, rfl, _, _,
      hplan, rfl, rfl, rfl⟩ := h
    exact ⟨⟨rfl, ⟨hjob, hid, hnonce, hsha, hplan⟩, trivial⟩, by simp only [layout, append_assoc]⟩
  case h_4 | h_8 | h_12 =>
    obtain ⟨_, _, hname, rfl, _, _, hbytes, rfl, rfl, rfl⟩ := h
    exact ⟨⟨rfl, ⟨hname, hbytes⟩, trivial⟩, by simp only [layout, append_assoc]⟩
  case h_5 | h_9 =>
    obtain ⟨_, _, htext, rfl, rfl, rfl⟩ := h
    exact ⟨⟨rfl, htext, trivial⟩, rfl⟩
  case h_7 =>
    obtain ⟨stream, _, rfl, h₁⟩ := h
    by_cases hstream : stream ≠ stdoutStream ∧ stream ≠ stderrStream
    · rw [if_pos hstream] at h₁
      exact absurd h₁ throw_ok
    rw [if_neg hstream] at h₁
    obtain ⟨_, _, hbytes, rfl, h₂⟩ := readBytes_exact.of_bind h₁
    cases h₂
    refine ⟨⟨rfl, hbytes, ?_⟩, by simp only [layout, append_assoc]⟩
    rw [not_and_or, not_not, not_not] at hstream
    exact hstream
  case h_10 | h_15 | h_16 =>
    obtain ⟨rfl, rfl⟩ := h
    exact ⟨⟨rfl, trivial, trivial⟩, rfl⟩
  case h_11 =>
    obtain ⟨_, _, rfl, _, _, rfl, rfl, rfl⟩ := h
    exact ⟨⟨rfl, trivial, trivial⟩, by simp only [layout, append_assoc]⟩
  case h_13 =>
    obtain ⟨_, _, hjob, rfl, _, _, hid, rfl, _, _, rfl, _, _, hnonce, rfl, _, _, hsha, rfl, rfl,
      rfl⟩ := h
    exact ⟨⟨rfl, ⟨hjob, hid, hnonce, hsha⟩, trivial⟩, by simp only [layout, append_assoc]⟩
  case h_14 =>
    obtain ⟨raw, _, hraw, rfl, h₁⟩ := h
    cases hconclusion : JobConclusion.tryFrom raw with
    | none =>
      rw [hconclusion] at h₁
      exact absurd h₁ throw_ok
    | some =>
      rw [hconclusion] at h₁
      obtain ⟨_, _, -, rfl, h₂⟩ := readI32_exact.of_bind h₁
      cases h₂
      rw [tryFrom_eq_some_iff.mp hconclusion] at hraw ⊢
      exact ⟨⟨rfl, hraw, trivial⟩, by simp only [layout, append_assoc]⟩

theorem readPayload_complete (message : VsockMessage) (hfits : message.Fits)
    (hstream : message.StreamKnown) (rest : List UInt8) :
    (readPayload message.kind).run (message.layout ++ rest) = .ok (message, rest) := by
  rw [VsockMessage.Fits] at hfits
  cases message with
  | stdio stream =>
    have hknown : ¬ (stream ≠ stdoutStream ∧ stream ≠ stderrStream) := by
      rw [not_and_or, not_not, not_not]
      exact hstream
    rw [kind, readPayload, layout, append_assoc, readU8_exact.run_bind trivial, if_neg hknown]
    exact readBytes_exact.run_bind hfits rest
  | jobCompleted =>
    rw [kind, readPayload, layout, append_assoc, readString_exact.run_bind hfits, tryFrom_asStr]
    exact readI32_exact.run_bind trivial rest
  | _ =>
    simp only [sized, List.Forall] at hfits
    simp only [kind, readPayload, layout, append_assoc, hfits, readBytes_exact.run_bind,
      readString_exact.run_bind, readBool_exact.run_bind, readU64_exact.run_bind,
      readI32_exact.run_bind]
    rfl

theorem readPayload_exact (kind : Nat) :
    Exact (readPayload kind) layout
      (fun message => message.kind = kind ∧ message.Fits ∧ message.StreamKnown) := by
  constructor
  intro _ message rest
  constructor
  · exact readPayload_sound
  · rintro ⟨⟨rfl, hfits, hstream⟩, rfl⟩
    exact readPayload_complete message hfits hstream rest

theorem decodePayload_ok_iff :
    decodePayload kind payload = .ok message ↔
      (message.kind = kind ∧ message.Fits ∧ message.StreamKnown) ∧ payload = message.layout := by
  have hrun : decodePayload kind payload = .ok message
      ↔ (readPayload kind).run payload = .ok (message, []) := by
    rw [decodePayload]
    cases (readPayload kind).run payload with
    | error =>
      constructor <;> intro h <;> cases h
    | ok result =>
      obtain ⟨_, cur⟩ := result
      cases cur with
      | nil =>
        constructor <;> intro h <;> cases h <;> rfl
      | cons =>
        constructor <;> intro h <;> cases h
  rw [hrun, (readPayload_exact kind).ok_iff, append_nil]

theorem writeBytes_bind_ok {b : β} {next : List UInt8 → Except VsockCodecError β} :
    (writeBytes out value >>= next) = .ok b ↔
      value.length < 256 ^ 4 ∧ next (out ++ sizedBytes 4 value) = .ok b := by
  rw [writeBytes, append_assoc]
  by_cases h : value.length < 2 ^ 32
  · rw [if_pos h]
    exact (and_iff_right h).symm
  rw [if_neg h]
  constructor
  · intro hb
    cases hb
  · rintro ⟨hlt, -⟩
    exact absurd hlt h

theorem writeBytes_ok :
    writeBytes out value = .ok payload ↔
      value.length < 256 ^ 4 ∧ payload = out ++ sizedBytes 4 value := by
  rw [← bind_pure (writeBytes out value), writeBytes_bind_ok, pure_eq_ok]

/-- Encoding a payload fails on a length only. -/
theorem encodePayload_ok_iff :
    encodePayload message = .ok payload ↔ message.Fits ∧ payload = message.layout := by
  cases message <;> simp only [encodePayload, writeString, writeBytes_bind_ok, writeBytes_ok,
    pure_eq_ok, VsockMessage.Fits, sized, layout, List.Forall, nil_append, and_assoc, true_and]

/-- A length that does not fit belongs to a payload that is too large. -/
theorem fits_of_layout (h : message.layout.length < 256 ^ 4) : message.Fits := by
  cases message <;> simp only [VsockMessage.Fits, sized, layout,
    List.Forall, sizedBytes, length_append] at h ⊢ <;> omega

/-! ## Frames -/

section Frames

variable {sha256 : List UInt8 → Vector UInt8 checksumLen}

/-- The frame of a message. -/
def frameOf (sha256 : List UInt8 → Vector UInt8 checksumLen) (message : VsockMessage) :
    List UInt8 :=
  frameBody message.kind message.layout ++ (sha256 (frameBody message.kind message.layout)).toList

variable {bytes : List UInt8}

theorem encode_ok_iff {frame : List UInt8} :
    encode sha256 message = .ok frame ↔
      message.layout.length ≤ maxPayloadBytes ∧ frame = frameOf sha256 message := by
  rw [encode]
  cases hpayload : encodePayload message with
  | error =>
    constructor
    · intro h
      cases h
    rintro ⟨hlen, -⟩
    have hfits : message.Fits := fits_of_layout (Nat.lt_of_le_of_lt hlen (by decide))
    rw [encodePayload_ok_iff.mpr ⟨hfits, rfl⟩] at hpayload
    cases hpayload
  | ok =>
    obtain ⟨-, rfl⟩ := encodePayload_ok_iff.mp hpayload
    change (if message.layout.length > maxPayloadBytes then _ else _) = _ ↔ _
    split_ifs with hlarge
    · constructor
      · intro h
        cases h
      · rintro ⟨hlen, -⟩
        exact absurd hlarge (Nat.not_lt.mpr hlen)
    · rw [and_iff_right (Nat.le_of_not_lt hlarge)]
      exact pure_eq_ok

/-- Decoding a header of eight bytes and what is behind it. -/
theorem decode_header {version kind len tail : List UInt8} (hversion : version.length = 2)
    (hkind : kind.length = 2) (hlen : len.length = 4) :
    decode sha256 (version ++ (kind ++ (len ++ tail)))
      = if 8 + tail.length < headerLen + checksumLen then .error (.truncated (8 + tail.length))
        else if ofBeBytes version ≠ protocolVersion then
          .error (.versionMismatch (ofBeBytes version))
        else if ofBeBytes len > maxPayloadBytes then .error (.payloadTooLarge (ofBeBytes len))
        else if 8 + tail.length ≠ headerLen + ofBeBytes len + checksumLen then
          .error (.truncated (8 + tail.length))
        else if (sha256 (version ++ (kind ++ (len ++ tail.take (ofBeBytes len))))).toList
            ≠ tail.drop (ofBeBytes len) then .error .checksumMismatch
        else decodePayload (ofBeBytes kind) (tail.take (ofBeBytes len)) := by
  have hsize : (version ++ (kind ++ (len ++ tail))).length = 8 + tail.length := by
    simp only [length_append]
    omega
  have hfour : (version ++ kind).length = 4 := by
    rw [length_append, hversion, hkind]
  have height : (version ++ (kind ++ len)).length = headerLen := by
    simp only [length_append, headerLen]
    omega
  have hdrop : (version ++ (kind ++ (len ++ tail))).drop 4 = len ++ tail := by
    rw [← append_assoc, drop_left' hfour]
  have hsplit : version ++ (kind ++ (len ++ tail)) = (version ++ (kind ++ len)) ++ tail := by
    simp only [append_assoc]
  have htake : ∀ n, (version ++ (kind ++ (len ++ tail))).take (headerLen + n)
      = version ++ (kind ++ (len ++ tail.take n)) := by
    intro _
    rw [hsplit, ← height, take_length_add_append]
    simp only [append_assoc]
  have hrest : ∀ n, (version ++ (kind ++ (len ++ tail))).drop (headerLen + n) = tail.drop n := by
    intro _
    rw [hsplit, ← height, drop_length_add_append]
  have hpayload :
      ∀ n, (version ++ (kind ++ (len ++ tail.take n))).drop headerLen = tail.take n := by
    intro _
    rw [← append_assoc kind, ← append_assoc version, drop_left' height]
  simp only [decode, hsize, take_left' hversion, drop_left' hversion,
    take_left' hkind, hdrop, take_left' hlen, htake, hrest, hpayload]

/-- A byte string of at least eight bytes as a header and what is behind it. -/
theorem exists_header (h : headerLen ≤ bytes.length) :
    ∃ version kind len tail, version.length = 2 ∧ kind.length = 2 ∧ len.length = 4
      ∧ bytes = version ++ (kind ++ (len ++ tail)) := by
  rw [headerLen] at h
  refine ⟨bytes.take 2, (bytes.drop 2).take 2, (bytes.drop 4).take 4, bytes.drop 8, ?_, ?_, ?_, ?_⟩
  · rw [length_take]
    omega
  · rw [length_take, length_drop]
    omega
  · rw [length_take, length_drop]
    omega
  · have hkind := take_append_drop 2 (bytes.drop 2)
    have hlen := take_append_drop 4 (bytes.drop 4)
    rw [drop_drop] at hkind hlen
    rw [hlen, hkind, take_append_drop]

/-- A word that was read is the word that is written. -/
theorem eq_beBytes {word : List UInt8} {width value : Nat} (hlen : word.length = width)
    (hvalue : ofBeBytes word = value) : word = beBytes width value := by
  rw [← hvalue, ← hlen, beBytes_ofBeBytes]

theorem decode_ok_iff :
    decode sha256 bytes = .ok message ↔
      message.StreamKnown ∧ message.layout.length ≤ maxPayloadBytes
        ∧ bytes = frameOf sha256 message := by
  constructor
  · intro h
    by_cases hshort : bytes.length < headerLen + checksumLen
    · rw [decode, if_pos hshort] at h
      cases h
    obtain ⟨version, kind, len, tail, hversion, hkind, hlen, rfl⟩ :=
      exists_header (Nat.le_trans (Nat.le_add_right _ _) (Nat.le_of_not_lt hshort))
    rw [decode_header hversion hkind hlen] at h
    split_ifs at h with h1 h2 h3 h4 h5
    rw [not_not] at h2 h5
    obtain ⟨⟨hkindEq, -, hstream⟩, hpayload⟩ := decodePayload_ok_iff.mp h
    have hsize : message.layout.length = ofBeBytes len := by
      rw [← hpayload, length_take]
      simp only [headerLen] at h4
      omega
    refine ⟨hstream, by rw [hsize]; exact Nat.le_of_not_lt h3, ?_⟩
    have hbody : frameBody message.kind message.layout
        = version ++ (kind ++ (len ++ tail.take (ofBeBytes len))) := by
      rw [hpayload, eq_beBytes hversion h2, eq_beBytes hkind hkindEq.symm,
        eq_beBytes hlen hsize.symm, frameBody]
      simp only [append_assoc]
    have htail : version ++ (kind ++ (len ++ tail))
        = (version ++ (kind ++ (len ++ tail.take (ofBeBytes len))))
          ++ tail.drop (ofBeBytes len) := by
      simp only [append_assoc, take_append_drop]
    rw [frameOf, hbody, h5, ← htail]
  · rintro ⟨hstream, hsize, rfl⟩
    have hkind : message.kind < 256 ^ 2 := by
      cases message <;> simp only [kind] <;> omega
    have hlen : message.layout.length < 256 ^ 4 := Nat.lt_of_le_of_lt hsize (by decide)
    simp only [frameOf, frameBody, append_assoc]
    rw [decode_header (length_beBytes ..) (length_beBytes ..) (length_beBytes ..),
      ofBeBytes_beBytes (by decide), ofBeBytes_beBytes hkind, ofBeBytes_beBytes hlen,
      take_left, drop_left, length_append, Vector.length_toList]
    rw [if_neg (by simp only [headerLen]; omega), if_neg (by simp),
      if_neg (Nat.not_lt.mpr hsize), if_neg (by simp only [headerLen]; omega),
      if_neg (not_not_intro rfl)]
    exact decodePayload_ok_iff.mpr ⟨⟨rfl, fits_of_layout hlen, hstream⟩, rfl⟩

/-- A frame as its header and what the header announces. -/
theorem frame_parts (sha256 : List UInt8 → Vector UInt8 checksumLen) (message : VsockMessage) :
    ∃ header body, frameOf sha256 message = header ++ body ∧ header.length = headerLen
      ∧ (header.drop 4).take 4 = beBytes 4 message.layout.length
      ∧ body.length = message.layout.length + checksumLen := by
  refine ⟨beBytes 2 protocolVersion ++ beBytes 2 message.kind ++ beBytes 4 message.layout.length,
    message.layout ++ (sha256 (frameBody message.kind message.layout)).toList, ?_, ?_, ?_, ?_⟩
  · simp only [frameOf, frameBody, append_assoc]
  · simp only [length_append, length_beBytes, headerLen]
  · rw [drop_left' (by simp only [length_append, length_beBytes])]
    exact take_of_length_le (by rw [length_beBytes])
  · rw [length_append, Vector.length_toList]

theorem readExact_exact (n : Nat) : Exact (readExact n) id (fun bytes => bytes.length = n) :=
  takeBytes_exact _ n

theorem readExact_bind {next : List UInt8 → Reader VsockCodecError β} {n : Nat}
    (h : bytes.length = n) (tail : List UInt8) :
    (readExact n >>= next).run (bytes ++ tail) = (next bytes).run tail :=
  (readExact_exact n).run_bind h tail

/-- Reading from a stream takes exactly one frame. -/
theorem readFrom_exact :
    Exact (readFrom sha256) (frameOf sha256)
      (fun message => message.StreamKnown ∧ message.layout.length ≤ maxPayloadBytes) := by
  constructor
  intro _ message _
  rw [readFrom]
  constructor
  · intro h
    obtain ⟨_, _, _, rfl, h₁⟩ := (readExact_exact headerLen).of_bind h
    dsimp only at h₁
    split_ifs at h₁ with hlarge
    · exact absurd h₁ throw_ok
    obtain ⟨_, _, _, rfl, h₂⟩ := (readExact_exact _).of_bind h₁
    obtain ⟨hdecode, rfl⟩ := lift_ok.mp h₂
    obtain ⟨hstream, hsize, hframe⟩ := decode_ok_iff.mp hdecode
    refine ⟨⟨hstream, hsize⟩, ?_⟩
    rw [← hframe, id, id, append_assoc]
  · rintro ⟨⟨hstream, hsize⟩, rfl⟩
    have hlen : message.layout.length < 256 ^ 4 := Nat.lt_of_le_of_lt hsize (by decide)
    obtain ⟨_, _, hframe, hheader, hword, hbody⟩ := frame_parts sha256 message
    rw [hframe, append_assoc, readExact_bind hheader]
    rw [hword, ofBeBytes_beBytes hlen, if_neg (Nat.not_lt.mpr hsize),
      readExact_bind hbody, ← hframe]
    exact lift_ok.mpr ⟨decode_ok_iff.mpr ⟨hstream, hsize, rfl⟩, rfl⟩

/-! ## Streams -/

theorem readFrom_consumes {stream rest : List UInt8}
    (h : (readFrom sha256).run stream = .ok (message, rest)) : rest.length < stream.length := by
  obtain ⟨-, rfl⟩ := readFrom_exact.ok_iff.mp h
  obtain ⟨_, _, hframe, hheader, -, -⟩ := frame_parts sha256 message
  rw [hframe, length_append, length_append, hheader, headerLen]
  omega

/-- Messages from a stream until a read fails, and that failure. -/
def readAll (sha256 : List UInt8 → Vector UInt8 checksumLen) (stream : List UInt8) :
    List VsockMessage × VsockCodecError :=
  match _h : (readFrom sha256).run stream with
  | .error e => ([], e)
  | .ok (message, rest) =>
    let (messages, e) := readAll sha256 rest
    (message :: messages, e)
termination_by stream.length
decreasing_by exact readFrom_consumes _h

theorem readAll_cons (hstream : message.StreamKnown)
    (hsize : message.layout.length ≤ maxPayloadBytes) (rest : List UInt8) :
    readAll sha256 (frameOf sha256 message ++ rest)
      = (message :: (readAll sha256 rest).1, (readAll sha256 rest).2) := by
  have hread : (readFrom sha256).run (frameOf sha256 message ++ rest) = .ok (message, rest) :=
    readFrom_exact.ok_iff.mpr ⟨⟨hstream, hsize⟩, rfl⟩
  rw [readAll]
  split
  next e herror =>
    rw [hread] at herror
    cases herror
  next message' rest' hok =>
    rw [hread] at hok
    cases hok
    rfl

/-- A message that encodes, with the frame it encodes to. -/
def Encodes (sha256 : List UInt8 → Vector UInt8 checksumLen) (message : VsockMessage)
    (frame : List UInt8) : Prop :=
  encode sha256 message = .ok frame ∧ message.StreamKnown

theorem readAll_flatten {messages : List VsockMessage} {frames : List (List UInt8)}
    (h : List.Forall₂ (Encodes sha256) messages frames) :
    readAll sha256 frames.flatten = (messages, .io "failed to fill whole buffer") := by
  induction h with
  | nil =>
    -- where the stream ends, the next read fails to fill its buffer
    rw [readAll]
    rfl
  | @cons _ _ _ _ hhead _ ih =>
    obtain ⟨hencode, hstream⟩ := hhead
    obtain ⟨hsize, rfl⟩ := encode_ok_iff.mp hencode
    rw [flatten_cons, readAll_cons hstream hsize, ih]

end Frames

/-- The codec is exact on messages whose stream, if they have one, is stdout or
    stderr: decoding undoes encoding, encoding undoes decoding, and a stream of
    frames is read back as the messages it was made of. -/
theorem vsock_codec_exact (sha256 : List UInt8 → Vector UInt8 checksumLen) :
    (∀ message frame, encode sha256 message = .ok frame → message.StreamKnown →
        decode sha256 frame = .ok message)
      ∧ (∀ bytes message, decode sha256 bytes = .ok message → encode sha256 message = .ok bytes)
      ∧ ∀ messages frames, List.Forall₂ (Encodes sha256) messages frames →
        readAll sha256 frames.flatten = (messages, .io "failed to fill whole buffer") := by
  refine ⟨?_, ?_, ?_⟩
  · intro _ _ hencode hstream
    obtain ⟨hsize, hframe⟩ := encode_ok_iff.mp hencode
    exact decode_ok_iff.mpr ⟨hstream, hsize, hframe⟩
  · intro _ _ hdecode
    obtain ⟨-, hsize, hframe⟩ := decode_ok_iff.mp hdecode
    exact encode_ok_iff.mpr ⟨hsize, hframe⟩
  · intro _ _ h
    exact readAll_flatten h

/-- A step's output line and its completion, as one stream. -/
theorem vsock_codec_exact_two_frames :
    let sha256 := fun _ : List UInt8 => Vector.replicate checksumLen (0 : UInt8)
    ∃ stdio completed,
      encode sha256 (.stdio 1 [104, 105]) = .ok stdio
        ∧ encode sha256 (.jobCompleted .timedOut (-1)) = .ok completed
        ∧ decode sha256 stdio = .ok (.stdio 1 [104, 105])
        ∧ readAll sha256 ([stdio, completed].flatten)
          = ([.stdio 1 [104, 105], .jobCompleted .timedOut (-1)],
              .io "failed to fill whole buffer") := by
  intro sha256
  have hstdio : encode sha256 (.stdio 1 [104, 105]) = .ok (frameOf sha256 (.stdio 1 [104, 105])) :=
    encode_ok_iff.mpr ⟨by decide, rfl⟩
  have hcompleted : encode sha256 (.jobCompleted .timedOut (-1))
      = .ok (frameOf sha256 (.jobCompleted .timedOut (-1))) :=
    encode_ok_iff.mpr ⟨by decide +kernel, rfl⟩
  obtain ⟨hdecode, -, hstreams⟩ := vsock_codec_exact sha256
  exact ⟨_, _, hstdio, hcompleted, hdecode _ _ hstdio (.inl rfl),
    hstreams _ _ (.cons ⟨hstdio, .inl rfl⟩ (.cons ⟨hcompleted, trivial⟩ .nil))⟩

/-- Encoding writes a third stream and decoding refuses it. -/
theorem third_stream_not_decoded :
    let sha256 := fun _ : List UInt8 => Vector.replicate checksumLen (0 : UInt8)
    (encode sha256 (.stdio 3 [])).bind (decode sha256) = .error (.invalidStream 3) := by
  decide +kernel

end Velnor.Guest
