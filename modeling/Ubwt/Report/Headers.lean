import Ubwt.Report.Results

/-!
# Ubwt.Report.Headers

The size of the headers in the results, and the headers on the wire.

`config_init` sets the size of the layer-4 header together with the default protocol. The option
`-p` sets the name and the value of the protocol and **leaves the size as it is**: the results
count 20 octets for a TCP header, whatever the sockets use (`headersFollow_iff`).
-/

namespace Ubwt

open Lib.Posix

/-- `UBWT_CONFIG_NET_L4_UDP_HEADER_SIZE`. -/
def configNetL4UdpHeaderSize : UInt16 := 8

/-- The header of a protocol. -/
def L4Proto.hdrSize : L4Proto → UInt16
  | unset => 0
  | tcp => configNetL4TcpHeaderSize
  | udp => configNetL4UdpHeaderSize

/-- The headers of a packet of the sockets, which `net_l4_proto_value` is the protocol of, to a
listener of this address family. -/
def wireHdrSize (cfg : Config) (ipv6 : Bool) : Nat :=
  configNetL2HeaderSize.toNat
    + (if ipv6 then configNetL3Ipv6HeaderSize else configNetL3Ipv4HeaderSize).toNat
    + cfg.netL4ProtoValue.hdrSize.toNat

/-- The octets of layer 2, if a packet has headers of `hdrSize`. -/
def l2Octets (cfg : Config) (c : ReportCollect) (hdrSize : Nat) : UInt64 :=
  c.talkStreamRecvBytes + c.talkStreamRecvBytes / UInt64.ofNat
    (if cfg.netMtu < cfg.talkPayloadCurrentSize then cfg.netMtu
      else cfg.talkPayloadCurrentSize).toNat * UInt64.ofNat hdrSize

/-- The results count the headers that are on the wire. -/
structure HeadersFollow (cfg : Config) : Prop where
  hdrSize : ∀ (F : Type) (fp : DoubleArith F) (ipv6 : Bool) (c : ReportCollect),
    (reportResultsCompute fp cfg ipv6 c).hdrSize.toNat = wireHdrSize cfg ipv6
  l2Octets : ∀ (F : Type) (fp : DoubleArith F) (ipv6 : Bool) (c : ReportCollect),
    (.l2Octets, .nat (l2Octets cfg c (wireHdrSize cfg ipv6)).toNat)
      ∈ fullValues fp cfg ipv6 ⟨c, reportResultsCompute fp cfg ipv6 c⟩
  bandwidth : ∀ (F : Type) (fp : DoubleArith F) (ipv6 : Bool) (c : ReportCollect),
    (reportResultsCompute fp cfg ipv6 c).bandwidthEstimatedMbps
      = fp.div (fp.div (fp.ofNat (Ubwt.l2Octets cfg c (wireHdrSize cfg ipv6) * 8).toNat)
          (fp.ofNat 1000000))
        (fp.div (fp.ofNat c.talkStreamTimeDuration.toNat) (fp.ofNat 1000000))

/-- The last argument of `-p`, or the default. -/
def protoArg (env : Env) (args : List CString) : CString :=
  lastArg .p configNetL4ProtoDefault
    (cmdoptOpts (getopt (cmdoptFlags env.debugBuild) none args).1)

variable {env : Env} {args : List CString} {cfg : Config}

/-- The protocol of the sockets. -/
theorem configInit_proto (h : configInit env args = .ok cfg) :
    cfg.netL4ProtoValue = if protoArg env args = "udp".toList then .udp else .tcp := by
  obtain ⟨cfg₀, role, addr, hloop, -, rfl⟩ := configInit_eq_ok h
  have hi := roleConfig_optInv role (strncpyTo configAddrSize addr)
    (cmdoptLoop_inv optInv_default hloop)
  obtain ⟨w, ws, wr, heq, -, -, -⟩ := configWorkers_eq hi
  have hfields : LoopFields (cmdoptOpts (getopt (cmdoptFlags env.debugBuild) none args).1)
      { roleConfig env role cfg₀ with addr := strncpyTo configAddrSize addr } :=
    roleConfig_loopFields (cmdoptLoop_fields hloop)
  rw [heq]
  exact hfields.proto

/-- The size that the results count. -/
theorem configInit_computed_hdrSize (h : configInit env args = .ok cfg) {F : Type}
    (fp : DoubleArith F) (ipv6 : Bool) (c : ReportCollect) :
    (reportResultsCompute fp cfg ipv6 c).hdrSize = UInt64.ofNat
      (configNetL2HeaderSize.toNat
        + (if ipv6 then configNetL3Ipv6HeaderSize else configNetL3Ipv4HeaderSize).toNat
        + configNetL4TcpHeaderSize.toNat) := by
  obtain ⟨h2, h34, h36, h4⟩ := configInit_hdrSizes h
  rw [reportResultsCompute, h2, h34, h36, h4]

/-- With TCP the headers that are counted are those on the wire. -/
theorem headersFollow_tcp (h : configInit env args = .ok cfg) (htcp : cfg.netL4ProtoValue = .tcp) :
    HeadersFollow cfg := by
  have hsize : ∀ (F : Type) (fp : DoubleArith F) (ipv6 : Bool) (c : ReportCollect),
      (reportResultsCompute fp cfg ipv6 c).hdrSize = UInt64.ofNat (wireHdrSize cfg ipv6) := by
    intro F fp ipv6 c
    rw [configInit_computed_hdrSize h, wireHdrSize, htcp]
    rfl
  refine ⟨?_, ?_, ?_⟩
  · intro F fp ipv6 c
    rw [hsize, wireHdrSize, htcp]
    cases ipv6 <;> rfl
  · intro F fp ipv6 c
    have hoctets : Ubwt.l2Octets cfg c (wireHdrSize cfg ipv6)
        = c.talkStreamRecvBytes + (reportResultsCompute fp cfg ipv6 c).totalPkts
          * (reportResultsCompute fp cfg ipv6 c).hdrSize := by
      rw [hsize]
      rfl
    rw [hoctets]
    simp [fullValues]
  · intro F fp ipv6 c
    rw [Ubwt.l2Octets, ← hsize F fp ipv6 c]
    rfl

/-- **The headers follow the protocol unless it is UDP.** For every accepted command line, and
whatever is collected: the header size, the layer-2 octets and the estimated bandwidth are those
of the protocol on the sockets exactly if the last `-p` is not `udp`. -/
theorem headersFollow_iff (h : configInit env args = .ok cfg) :
    HeadersFollow cfg ↔ protoArg env args ≠ "udp".toList := by
  have hproto := configInit_proto h
  constructor
  · intro hfollow hudp
    rw [if_pos hudp] at hproto
    have hsize := hfollow.hdrSize ℚ ratArith.toDoubleArith false .zero
    rw [configInit_computed_hdrSize h, wireHdrSize, hproto] at hsize
    exact absurd hsize (by decide)
  · intro htcp
    rw [if_neg htcp] at hproto
    exact headersFollow_tcp h hproto

/-- `ubwt -p udp -p tcp connector 10.0.0.1`. -/
theorem headersFollow_last_tcp :
    ∃ cfg, configInit ⟨false, false, fun _ _ => false⟩
        ["-p".toList, "udp".toList, "-p".toList, "tcp".toList, "connector".toList,
          "10.0.0.1".toList] = .ok cfg
      ∧ HeadersFollow cfg := by
  obtain ⟨cfg, hcfg⟩ : ∃ cfg, configInit ⟨false, false, fun _ _ => false⟩
        ["-p".toList, "udp".toList, "-p".toList, "tcp".toList, "connector".toList,
          "10.0.0.1".toList] = .ok cfg := ⟨_, rfl⟩
  exact ⟨cfg, hcfg, (headersFollow_iff hcfg).mpr (by decide)⟩

/-- `ubwt -p udp connector 10.0.0.1`: 66 octets of headers instead of 54. -/
theorem headersFollow_fails_udp :
    ∃ cfg, configInit ⟨false, false, fun _ _ => false⟩
        ["-p".toList, "udp".toList, "connector".toList, "10.0.0.1".toList] = .ok cfg
      ∧ cfg.netL4ProtoValue = .udp
      ∧ wireHdrSize cfg false = 54
      ∧ (reportResultsCompute ratArith.toDoubleArith cfg false .zero).hdrSize = 66
      ∧ ¬ HeadersFollow cfg := by
  obtain ⟨cfg, hcfg, hproto⟩ : ∃ cfg, configInit ⟨false, false, fun _ _ => false⟩
        ["-p".toList, "udp".toList, "connector".toList, "10.0.0.1".toList] = .ok cfg
      ∧ cfg.netL4ProtoValue = .udp := ⟨_, rfl, rfl⟩
  refine ⟨cfg, hcfg, hproto, ?_, ?_, ?_⟩
  · rw [wireHdrSize, hproto]
    rfl
  · rw [configInit_computed_hdrSize hcfg]
    rfl
  · intro hfollow
    have hsize := hfollow.hdrSize ℚ ratArith.toDoubleArith false .zero
    rw [configInit_computed_hdrSize hcfg, wireHdrSize, hproto] at hsize
    exact absurd hsize (by decide)

end Ubwt
