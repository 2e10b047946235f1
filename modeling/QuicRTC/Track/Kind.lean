import QuicRTC.Framework.GoMap

/-! # Track Kinds

`track/track.go`: what a track carries, and the defaults that follow from it.
-/

namespace QuicRTC

/-- A string in the source: the named ones, the empty one, and any other. -/
inductive Kind where
  | unset
  | video
  | audio
  | tokens
  | toolCalls
  | telemetry
  | other (name : GoString)
  deriving DecidableEq

def Kind.toGoString : Kind → GoString
  | .unset => []
  | .video => str "video"
  | .audio => str "audio"
  | .tokens => str "tokens"
  | .toolCalls => str "toolcalls"
  | .telemetry => str "telemetry"
  | .other name => name

def Kind.ofGoString (s : GoString) : Kind :=
  if s = [] then .unset
  else if s = str "video" then .video
  else if s = str "audio" then .audio
  else if s = str "tokens" then .tokens
  else if s = str "toolcalls" then .toolCalls
  else if s = str "telemetry" then .telemetry
  else .other s

structure LocalTrack where
  name : GoString
  kind : Kind
  priority : UInt8
  deriving DecidableEq

/-- Which pump loop serves a track. -/
inductive DeliveryClass where
  | streamGOP
  | streamLowLatency
  | bidiPerCall
  | datagramOrStream
  deriving DecidableEq

def priorityCritical : UInt8 := 0
def priorityHigh : UInt8 := 2
def priorityNormal : UInt8 := 4
def priorityBackground : UInt8 := 7

def defaultPriority : Kind → UInt8
  | .audio => priorityCritical
  | .tokens => priorityHigh
  | .toolCalls => priorityHigh
  | .video => priorityNormal
  | .telemetry => priorityBackground
  | .unset => priorityNormal
  | .other _ => priorityNormal

def defaultDeliveryClass : Kind → DeliveryClass
  | .video => .streamGOP
  | .tokens => .streamLowLatency
  | .audio => .streamLowLatency
  | .toolCalls => .bidiPerCall
  | .telemetry => .datagramOrStream
  | .unset => .streamGOP
  | .other _ => .streamGOP

end QuicRTC
