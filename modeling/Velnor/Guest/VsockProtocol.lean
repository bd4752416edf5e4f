/-
  The host/guest protocol of the microVM backend (vsock_protocol.rs): typed
  messages in frames of version, kind, length, payload and checksum.

  SHA-256 is a parameter: any function from byte strings to 32 bytes.  A stream
  is the bytes still to come; a read that runs past their end is the standard
  library's "failed to fill whole buffer".
-/
import Velnor.Wire.Reader

namespace Velnor.Guest

open Wire

/-! ## Messages -/

inductive JobConclusion where
  | success | failure | cancelled | neutral | skipped | timedOut | startupFailure | actionRequired
  | stale
  deriving DecidableEq, Repr

namespace JobConclusion

/-- Canonical spelling. -/
def asStr : JobConclusion → String
  | success => "success"
  | failure => "failure"
  | cancelled => "cancelled"
  | neutral => "neutral"
  | skipped => "skipped"
  | timedOut => "timed_out"
  | startupFailure => "startup_failure"
  | actionRequired => "action_required"
  | stale => "stale"

def tryFrom (raw : String) : Option JobConclusion :=
  if raw = "success" then some success
  else if raw = "failure" then some failure
  else if raw = "cancelled" then some cancelled
  else if raw = "neutral" then some neutral
  else if raw = "skipped" then some skipped
  else if raw = "timed_out" then some timedOut
  else if raw = "startup_failure" then some startupFailure
  else if raw = "action_required" then some actionRequired
  else if raw = "stale" then some stale
  else none

end JobConclusion

/-- Typed messages between host and guest. -/
inductive VsockMessage where
  | guestIdentity (isolationId : String) (generation : UInt64) (restored : Bool)
  | guestReady (isolationId : String) (generation : UInt64)
      (dockerHealthy jobCredentialsAbsent : Bool) (sessionChallenge : String)
  | deliverPlan (jobId isolationId : String) (generation : UInt64)
      (executionNonce planSha256 : String) (planBytes : List UInt8)
  | importBlob (digestSha256 : String) (bytes : List UInt8)
  | stepStarted (stepId : String)
  | stepCompleted (stepId : String) (exitCode : Int32) (skipped : Bool)
  | stdio (stream : UInt8) (bytes : List UInt8)
  | commandFile (path : String) (bytes : List UInt8)
  | annotationText (text : String)
  | cancel
  | prepareSnapshot
  | snapshotReady
  | telemetry (cpuMillis memoryBytes : UInt64)
  | resultExport (digestSha256 : String) (bytes : List UInt8)
  | teardownAck (jobId isolationId : String) (generation : UInt64)
      (executionNonce planSha256 : String)
  | jobCompleted (conclusion : JobConclusion) (exitCode : Int32)
  deriving DecidableEq

/-- Malformed vsock frame. -/
inductive VsockCodecError where
  | truncated (len : Nat)
  | versionMismatch (version : Nat)
  | payloadTooLarge (len : Nat)
  | checksumMismatch
  | unknownKind (kind : Nat)
  | invalidUtf8
  | trailingBytes (len : Nat)
  | io (detail : String)
  | invalidConclusion (value : String)
  | invalidStream (value : UInt8)
  | invalidBoolean (value : UInt8)
  deriving DecidableEq, Repr

def protocolVersion : Nat := 8
def maxPayloadBytes : Nat := 1024 * 1024
def stdoutStream : UInt8 := 1
def stderrStream : UInt8 := 2
def headerLen : Nat := 8
def checksumLen : Nat := 32

def VsockMessage.kind : VsockMessage → Nat
  | guestIdentity .. => 14
  | guestReady .. => 1
  | deliverPlan .. => 2
  | importBlob .. => 3
  | stepStarted .. => 4
  | stepCompleted .. => 5
  | stdio .. => 6
  | commandFile .. => 7
  | annotationText .. => 8
  | cancel => 9
  | telemetry .. => 10
  | resultExport .. => 11
  | teardownAck .. => 12
  | jobCompleted .. => 13
  | prepareSnapshot => 15
  | snapshotReady => 16

/-! ## Fields -/

/-- The bytes of a string are its UTF-8 encoding. -/
def utf8 (value : String) : List UInt8 := value.toByteArray.data.toList

def writeBytes (out value : List UInt8) : Except VsockCodecError (List UInt8) :=
  if value.length < 2 ^ 32 then .ok (out ++ beBytes 4 value.length ++ value)
  else .error (.payloadTooLarge value.length)

def writeString (out : List UInt8) (value : String) : Except VsockCodecError (List UInt8) :=
  writeBytes out (utf8 value)

def writeU64 (value : UInt64) : List UInt8 := beBytes 8 value.toNat

/-- Two's complement. -/
def writeI32 (value : Int32) : List UInt8 := beBytes 4 value.toBitVec.toNat

def writeBool (value : Bool) : List UInt8 := [if value then 1 else 0]

def readBytes : Reader VsockCodecError (List UInt8) := do
  let len ← readWord .truncated 4
  takeBytes .truncated len

def readString : Reader VsockCodecError String := do
  let bytes ← readBytes
  match String.fromUTF8? bytes.toByteArray with
  | some value => return value
  | none => throw .invalidUtf8

def readU8 : Reader VsockCodecError UInt8 := do
  let byte ← readWord .truncated 1
  return UInt8.ofNat byte

def readBool : Reader VsockCodecError Bool := do
  let value ← readU8
  if value = 0 then return false
  else if value = 1 then return true
  else throw (.invalidBoolean value)

def readU64 : Reader VsockCodecError UInt64 := do
  let value ← readWord .truncated 8
  return UInt64.ofNat value

def readI32 : Reader VsockCodecError Int32 := do
  let value ← readWord .truncated 4
  return Int32.ofBitVec (BitVec.ofNat 32 value)

/-! ## Payloads -/

/-- The payload of a message. -/
def encodePayload : VsockMessage → Except VsockCodecError (List UInt8)
  | .guestIdentity isolationId generation restored => do
    let payload ← writeString [] isolationId
    return payload ++ writeU64 generation ++ writeBool restored
  | .guestReady isolationId generation dockerHealthy jobCredentialsAbsent sessionChallenge => do
    let payload ← writeString [] isolationId
    writeString
      (payload ++ writeU64 generation ++ writeBool dockerHealthy ++ writeBool jobCredentialsAbsent)
      sessionChallenge
  | .deliverPlan jobId isolationId generation executionNonce planSha256 planBytes => do
    let payload ← writeString [] jobId
    let payload ← writeString payload isolationId
    let payload ← writeString (payload ++ writeU64 generation) executionNonce
    let payload ← writeString payload planSha256
    writeBytes payload planBytes
  | .importBlob digestSha256 bytes => do
    let payload ← writeString [] digestSha256
    writeBytes payload bytes
  | .stepStarted stepId => writeString [] stepId
  | .stepCompleted stepId exitCode skipped => do
    let payload ← writeString [] stepId
    return payload ++ writeI32 exitCode ++ writeBool skipped
  | .stdio stream bytes => writeBytes [stream] bytes
  | .commandFile path bytes => do
    let payload ← writeString [] path
    writeBytes payload bytes
  | .annotationText text => writeString [] text
  | .cancel => return []
  | .telemetry cpuMillis memoryBytes => return writeU64 cpuMillis ++ writeU64 memoryBytes
  | .resultExport digestSha256 bytes => do
    let payload ← writeString [] digestSha256
    writeBytes payload bytes
  | .teardownAck jobId isolationId generation executionNonce planSha256 => do
    let payload ← writeString [] jobId
    let payload ← writeString payload isolationId
    let payload ← writeString (payload ++ writeU64 generation) executionNonce
    writeString payload planSha256
  | .jobCompleted conclusion exitCode => do
    let payload ← writeString [] conclusion.asStr
    return payload ++ writeI32 exitCode
  | .prepareSnapshot => return []
  | .snapshotReady => return []

/-- The fields of a message of the given kind. -/
def readPayload (kind : Nat) : Reader VsockCodecError VsockMessage :=
  match kind with
  | 14 => do
    let isolationId ← readString
    let generation ← readU64
    let restored ← readBool
    return .guestIdentity isolationId generation restored
  | 1 => do
    let isolationId ← readString
    let generation ← readU64
    let dockerHealthy ← readBool
    let jobCredentialsAbsent ← readBool
    let sessionChallenge ← readString
    return .guestReady isolationId generation dockerHealthy jobCredentialsAbsent sessionChallenge
  | 2 => do
    let jobId ← readString
    let isolationId ← readString
    let generation ← readU64
    let executionNonce ← readString
    let planSha256 ← readString
    let planBytes ← readBytes
    return .deliverPlan jobId isolationId generation executionNonce planSha256 planBytes
  | 3 => do
    let digestSha256 ← readString
    let bytes ← readBytes
    return .importBlob digestSha256 bytes
  | 4 => do
    let stepId ← readString
    return .stepStarted stepId
  | 5 => do
    let stepId ← readString
    let exitCode ← readI32
    let skipped ← readBool
    return .stepCompleted stepId exitCode skipped
  | 6 => do
    let stream ← readU8
    if stream ≠ stdoutStream ∧ stream ≠ stderrStream then
      throw (.invalidStream stream)
    else
      let bytes ← readBytes
      return .stdio stream bytes
  | 7 => do
    let path ← readString
    let bytes ← readBytes
    return .commandFile path bytes
  | 8 => do
    let text ← readString
    return .annotationText text
  | 9 => return .cancel
  | 10 => do
    let cpuMillis ← readU64
    let memoryBytes ← readU64
    return .telemetry cpuMillis memoryBytes
  | 11 => do
    let digestSha256 ← readString
    let bytes ← readBytes
    return .resultExport digestSha256 bytes
  | 12 => do
    let jobId ← readString
    let isolationId ← readString
    let generation ← readU64
    let executionNonce ← readString
    let planSha256 ← readString
    return .teardownAck jobId isolationId generation executionNonce planSha256
  | 13 => do
    let raw ← readString
    match JobConclusion.tryFrom raw with
    | none => throw (.invalidConclusion raw)
    | some conclusion =>
      let exitCode ← readI32
      return .jobCompleted conclusion exitCode
  | 15 => return .prepareSnapshot
  | 16 => return .snapshotReady
  | other => throw (.unknownKind other)

/-- Every byte of the payload is used. -/
def decodePayload (kind : Nat) (payload : List UInt8) : Except VsockCodecError VsockMessage := do
  let (message, cur) ← (readPayload kind).run payload
  if cur ≠ [] then throw (.trailingBytes cur.length)
  else return message

/-! ## Frames -/

section Frames

variable (sha256 : List UInt8 → Vector UInt8 checksumLen)

/-- Version, kind, length and payload: what the checksum covers. -/
def frameBody (kind : Nat) (payload : List UInt8) : List UInt8 :=
  beBytes 2 protocolVersion ++ beBytes 2 kind ++ beBytes 4 payload.length ++ payload

/-- Header, payload and checksum. -/
def encode (message : VsockMessage) : Except VsockCodecError (List UInt8) := do
  let payload ← encodePayload message
  if payload.length > maxPayloadBytes then
    throw (.payloadTooLarge payload.length)
  else
    let frame := frameBody message.kind payload
    return frame ++ (sha256 frame).toList

/-- The message of a frame that passes every check. -/
def decode (bytes : List UInt8) : Except VsockCodecError VsockMessage :=
  if bytes.length < headerLen + checksumLen then .error (.truncated bytes.length)
  else
    let version := ofBeBytes (bytes.take 2)
    if version ≠ protocolVersion then .error (.versionMismatch version)
    else
      let kind := ofBeBytes ((bytes.drop 2).take 2)
      let payloadLen := ofBeBytes ((bytes.drop 4).take 4)
      if payloadLen > maxPayloadBytes then .error (.payloadTooLarge payloadLen)
      else
        let payloadEnd := headerLen + payloadLen
        let checksumEnd := payloadEnd + checksumLen
        if bytes.length ≠ checksumEnd then .error (.truncated bytes.length)
        else if (sha256 (bytes.take payloadEnd)).toList ≠ bytes.drop payloadEnd then
          .error .checksumMismatch
        else decodePayload kind ((bytes.take payloadEnd).drop headerLen)

/-- The next `n` bytes of a stream. -/
def readExact (n : Nat) : Reader VsockCodecError (List UInt8) :=
  takeBytes (fun _ => .io "failed to fill whole buffer") n

/-- Exactly one framed message from a stream. -/
def readFrom : Reader VsockCodecError VsockMessage := do
  let header ← readExact headerLen
  let payloadLen := ofBeBytes ((header.drop 4).take 4)
  if payloadLen > maxPayloadBytes then throw (.payloadTooLarge payloadLen)
  else
    let rest ← readExact (payloadLen + checksumLen)
    decode sha256 (header ++ rest)

end Frames

end Velnor.Guest
