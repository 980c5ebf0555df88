import UcsmaRateControl.Machine.Bytes
import UcsmaRateControl.Packetspammer.Feedback
import UcsmaRateControl.Packetspammer.Options

/-!
# The send loop of `packetspammer`

After the options `main` opens the interface, builds one packet, and sends it over and over. The
length of the packet is how far a pointer has moved over the buffer, by amounts that depend on the
options and wrap around. After each packet the loop asks the device for the number of free buffers
and sleeps accordingly. It leaves when a counter, which wraps around as well, equals the number of
packets that was asked for.
-/

namespace UcsmaRateControl

/-! ## The packet -/

/-- `u8aRadiotapHeader`. -/
def u8aRadiotapHeader : Fin 25 → UInt8 :=
  ![0x00, 0x00, 0x19, 0x00, 0x6f, 0x08, 0x00, 0x00, 0x00, 0x00, 0x00, 0x00, 0x00, 0x00, 0x00, 0x00,
    0x02, 0x16, 0x8f, 0x09, 0xa0, 0x00, 0x00, 0x00, 0x00]

/-- `OFFSET_FLAGS`. -/
def offsetFlags : Fin 2500 := 0x10

/-- `IEEE80211_RADIOTAP_F_FCS`. -/
def ieee80211RadiotapFFcs : UInt8 := 0x10

/-- What `sprintf` writes behind the headers. -/
def sendText (hostname : List UInt8) : List UInt8 :=
  "Packetspammer 11broadcast packet#00000 -- :-D --".toUTF8.toList ++ hostname ++
    " ----".toUTF8.toList ++ [0]

/-- `u8aSendBuffer`. A host name has at most 64 bytes, so that the text fits. -/
def Settings.sendBuffer (s : Settings) (hostname : List UInt8) : Fin 2500 → UInt8 :=
  let buf := memcpy (fun _ ↦ 0) 0 (List.ofFn u8aRadiotapHeader)
  let buf :=
    if s.flagMarkWithFCS then
      Function.update buf offsetFlags (buf offsetFlags ||| ieee80211RadiotapFFcs)
    else buf
  let buf := memcpy buf 25 (List.ofFn s.ieeeHeader)
  memcpy buf 49 (sendText hostname)

/-- `send_length`. Sizes and pointers have 32 bits. -/
def Settings.sendLength (s : Settings) : UInt32 :=
  let pu8 := 25
  let pu8 := pu8 + 24
  let pu8 := pu8 + (s.frameLen - 24 - 4)
  if s.flagMarkWithFCS then pu8 + 4 else pu8

theorem Settings.toNat_sendLength (s : Settings) :
    s.sendLength.toNat =
      (s.frameLen.toNat + if s.flagMarkWithFCS then 25 else 21) % 2 ^ 32 := by
  have hlt := s.frameLen.toNat_lt
  rw [sendLength]
  split
  · rw [← UInt32.toNat_ofNat']
    refine congrArg UInt32.toNat ?_
    rw [UInt32.ofNat_add, UInt32.ofNat_toNat]
    grind
  · rw [← UInt32.toNat_ofNat']
    refine congrArg UInt32.toNat ?_
    rw [UInt32.ofNat_add, UInt32.ofNat_toNat]
    grind

/-! ## The loop -/

/-- `statistics`. -/
structure Statistics where
  sentByte : Int32
  sleepInterval : Int32
  sentPacket : Int32

/-- Where `main` is. -/
inductive SendStatus
  /-- At the top of the loop. -/
  | running
  /-- After the loop. -/
  | left
  /-- `main` has returned 1. -/
  | failed
deriving DecidableEq

/-- The variables of the loop. `fBrokenSocket` is never set. -/
structure Sender where
  buffer : Fin 2500 → UInt8
  sendLength : UInt32
  frameLen : UInt32
  count : UInt32
  /-- Whether `open` has returned a descriptor. -/
  device : Bool
  stats : Statistics
  sentPacket : UInt32
  status : SendStatus

/-- What one turn of the loop gets from outside. -/
structure Turn where
  /-- What `pcap_inject` returns. -/
  r : Int32
  /-- The counter that the driver has exported. -/
  counter : Int32
  /-- How many bytes of it `copy_to_user` does not copy. -/
  errorCount : ℕ

/-- What a turn does to the outside. -/
inductive SendEvent
  | inject (buf : Fin 2500 → UInt8) (len : UInt32)
  | sleep (us : Int32)

namespace Sender

variable (s : Sender)

/-- The loop takes the packet for sent. What `pcap_inject` returns is compared as an unsigned
number. -/
def Accepted (t : Turn) : Prop := t.r.toUInt32 = s.sendLength

instance (t : Turn) : Decidable (s.Accepted t) := inferInstanceAs (Decidable (_ = _))

/-- How many bytes of `buf_free` are written. Without a descriptor `read` fails. -/
def written (t : Turn) : ℕ := if s.device then (devRead t.counter 4 t.errorCount).written else 0

/-- `buf_free` after `read`, in memory that holds `garbage` before. -/
def bufFree (o : ByteOrder) (t : Turn) (garbage : ℕ → UInt8) : Int32 :=
  let buf := overwrite (s.written t) (o.byte 4 t.counter.toUInt32.toNat) garbage
  (UInt32.ofNat (o.load 4 buf 0)).toInt32

/-- What a turn leaves. -/
def turn (t : Turn) : Sender :=
  let stats :=
    { s.stats with
      sentByte := s.stats.sentByte + s.frameLen.toInt32
      sentPacket := s.stats.sentPacket + 1 }
  if s.Accepted t then
    let sentPacket := s.sentPacket + 1
    { s with stats, sentPacket, status := if sentPacket = s.count then .left else .running }
  else { s with stats, status := .failed }

/-- `usleep`, unless there is nothing to wait for. -/
def pause (o : ByteOrder) (t : Turn) (garbage : ℕ → UInt8) : List SendEvent :=
  let waitUs := wait (s.bufFree o t garbage)
  if waitUs ≠ 0 then [.sleep waitUs] else []

/-- What a turn puts out. -/
def output (o : ByteOrder) (s : Sender) (e : Turn × (ℕ → UInt8)) : List SendEvent :=
  if s.status = .running then
    .inject s.buffer s.sendLength :: if s.Accepted e.1 then s.pause o e.1 e.2 else []
  else []

end Sender

/-- The loop. A label is what a turn gets, with what its `buf_free` holds at first. -/
def sendLoop : Machine Sender (Turn × (ℕ → UInt8)) where
  step s e := if s.status = .running then some (s.turn e.1) else none

/-! ## Getting to the loop -/

/-- What `pcap_datalink` returns. -/
inductive DataLink
  | prismHeader
  | ieee80211Radio
  | other

/-- What `main` finds. -/
structure SpamEnv where
  hostname : List UInt8
  /-- Whether an interface is given. -/
  hasInterface : Bool
  /-- Whether `pcap_open_live` opens it. -/
  opened : Bool
  datalink : DataLink
  /-- Whether `pcap_compile` succeeds. -/
  compiled : Bool
  /-- Whether `/dev/ebbchar` can be opened. -/
  device : Bool

/-- `main` between the options and the loop. It exits with 1, or gets to the loop. -/
def Settings.startSending (s : Settings) (env : SpamEnv) : Except Int32 Sender :=
  if !env.hasInterface then .error 1
  else if !env.opened then .error 1
  else
    match env.datalink with
    | .other => .error 1
    | _ =>
      if !env.compiled then .error 1
      else .ok {
        buffer := s.sendBuffer env.hostname
        sendLength := s.sendLength
        frameLen := s.frameLen
        count := s.count
        device := env.device
        stats := ⟨0, s.rateStatInterval, 0⟩
        sentPacket := 0
        status := .running }

/-- A sender at the first turn of the loop. -/
structure Sender.Starts (w : Sender) (s : Settings) : Prop where
  sendLength : w.sendLength = s.sendLength
  count : w.count = s.count
  statsSentPacket : w.stats.sentPacket = 0
  sentPacket : w.sentPacket = 0
  status : w.status = .running

theorem Settings.starts_of_startSending {s : Settings} {env : SpamEnv} {w : Sender}
    (h : s.startSending env = .ok w) : w.Starts s := by
  rw [startSending] at h
  cases hlink : env.datalink with
  | other =>
    rw [hlink] at h
    split_ifs at h
  | prismHeader | ieee80211Radio =>
    rw [hlink] at h
    split_ifs at h
    obtain rfl := Except.ok.inj h
    exact ⟨rfl, rfl, rfl, rfl, rfl⟩

/-- An interface that delivers radiotap headers, and the device. -/
def plainEnv : SpamEnv := ⟨[], true, true, .ieee80211Radio, true, true⟩

end UcsmaRateControl
