import Smarthome.Lowpan.Reassembly

/-! `sicslowpan.c`: the frames that `output` makes of the packet in `uip_buf`. -/
namespace Smarthome.Lowpan

open Semantics

/-- `SICSLOWPAN_CONF_COMPRESSION_THRESHOLD`. -/
abbrev compressionThreshold : Nat := 63

/-- `MAC_MAX_PAYLOAD`. -/
abbrev macMaxPayload : Nat := 127 - 2

/-- The one context of `addr_contexts`, with the default prefix. -/
def addrContexts : List AddrContext := [⟨1, 0, fun i => if i = 0 then 0xfd else 0⟩]

/-- What the sending of the frames meets with: free buffers in the queue, whether there is one
for a frame, and whether the transmission of a frame ends with an error. -/
structure Sends where
  numfree : Nat
  queuebufNew : Nat → Bool
  txError : Nat → Bool

/-- All sends succeed. -/
structure Sends.Succeed (sends : Sends) (estimatedFragments : Int) : Prop where
  numfree : estimatedFragments ≤ (sends.numfree : Int) - 1
  queuebufNew : ∀ k, sends.queuebufNew k = true
  txError : ∀ k, sends.txError k = false

/-- `compress_hdr_ipv6`. -/
def compressHdrIpv6 (buf : Nat → Byte) : CompressedHdr where
  bytes := dispatchIpv6 :: slice buf 0 uipIphLen
  uncompHdrLen := uipIphLen

/-- `SET16` of a dispatch and the length of the packet. -/
def fragDispatchSize (dispatch : Byte) (uipLen : Nat) : List Byte :=
  [dispatch ||| UInt8.ofNat (uipLen / 256), UInt8.ofNat uipLen]

def fragTagBytes (fragTag : UInt16) : List Byte :=
  [UInt8.ofNat (fragTag.toNat / 256), UInt8.ofNat fragTag.toNat]

/-- The multiple of 8 that `& 0xfffffff8` leaves. -/
def alignedLen (len : Int) : Nat := (len - len % 8).toNat

section Output

variable (sends : Sends) (fragTag : UInt16) (buf : Nat → Byte) (uipLen : Nat)

/-- A following fragment with this many bytes behind the processed ones. -/
def fragn (processedIpOutLen packetbufPayloadLen : Nat) : List Byte :=
  fragDispatchSize dispatchFragn uipLen ++ fragTagBytes fragTag ++
    [UInt8.ofNat (processedIpOutLen / 8)] ++ slice buf processedIpOutLen packetbufPayloadLen

/-- The loop over the following fragments, each with its number. -/
def followingFragments (packetbufPayloadLen : Nat) : Nat → Nat → Nat → List (List Byte)
  | 0, _, _ => []
  | fuel + 1, number, processedIpOutLen =>
      if processedIpOutLen < uipLen then
        let len := min packetbufPayloadLen (uipLen - processedIpOutLen)
        if sends.queuebufNew number = false then []
        else if sends.txError number then [fragn fragTag buf uipLen processedIpOutLen len]
        else fragn fragTag buf uipLen processedIpOutLen len ::
          followingFragments packetbufPayloadLen fuel (number + 1) (processedIpOutLen + len)
      else []

/-- The first fragment, with its header, and what follows it. -/
def fragments (hdr : CompressedHdr) (maxPayload : Int) : List (List Byte) :=
  let packetbufPayloadLen :=
    alignedLen (maxPayload - (hdr.bytes.length + sicslowpanFrag1HdrLen : Nat))
  let first := fragDispatchSize dispatchFrag1 uipLen ++ fragTagBytes fragTag ++ hdr.bytes ++
    slice buf hdr.uncompHdrLen packetbufPayloadLen
  if sends.queuebufNew 0 = false then []
  else if sends.txError 0 then [first]
  else first :: followingFragments sends fragTag buf uipLen
    (alignedLen (maxPayload - sicslowpanFragnHdrLen)) uipLen 1
    (packetbufPayloadLen + hdr.uncompHdrLen)

/-- `estimated_fragments`. -/
def estimatedFragments (maxPayload : Int) : Int :=
  (uipLen : Int) / (maxPayload - sicslowpanFragnHdrLen) + 1

/-- The compressed header, or the header as it is in a short packet. -/
def outputHdr (contexts : List AddrContext) (uipLladdr dest : LinkAddr) : CompressedHdr :=
  if compressionThreshold ≤ uipLen then compressHdrIphc contexts uipLladdr dest buf
  else compressHdrIpv6 buf

/-- `output`, with the frames that are sent to `dest`. -/
def output (contexts : List AddrContext) (uipLladdr dest : LinkAddr) (framerHdrlen : Nat) :
    List (List Byte) :=
  let hdr := outputHdr buf uipLen contexts uipLladdr dest
  let maxPayload : Int := macMaxPayload - framerHdrlen
  if (uipLen : Int) - hdr.uncompHdrLen > maxPayload - hdr.bytes.length then
    if (sends.numfree : Int) - 1 < estimatedFragments uipLen maxPayload then []
    else fragments sends fragTag buf uipLen hdr maxPayload
  else [hdr.bytes ++ slice buf hdr.uncompHdrLen (uipLen - hdr.uncompHdrLen)]

end Output

end Smarthome.Lowpan
