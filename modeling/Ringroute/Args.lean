import Ringroute.Method.Tcp
import Ringroute.Method.Udp
import Ringroute.Run

namespace Ringroute
open Library
set_option autoImplicit true

def maxProbesPerHop : Nat := 10

inductive MethodArg where
  | icmp
  | udp
  | tcp
  deriving DecidableEq, Repr

def MethodArg.build (pnet : Pnet) (system : TcpSystem) (arg : MethodArg) (target : IpAddr)
    (packetLen : Nat) : Except String Method :=
  match arg with
  | .icmp => (Icmp.tryNew target packetLen).map Icmp.method
  | .udp => (Udp.tryNew target packetLen).map Udp.method
  | .tcp => (Tcp.tryNew system target).map fun tcp => tcp.method pnet system.clock

def loopbackAddr : IpAddr := .v4 .localhost

def loopbackSystem : TcpSystem where
  localPort _ := .ok 40000
  localIp target := .ok ⟨target, rfl⟩
  clock _ := 0

theorem MethodArg.build_ok {arg : MethodArg}
    (h : arg.build pnet system target packetLen = .ok method) :
    match arg with
    | .icmp => ∃ icmp : Icmp, method = icmp.method
    | .udp => ∃ udp : Udp, method = udp.method
    | .tcp => ∃ tcp : Tcp, method = tcp.method pnet system.clock := by
  cases arg with
  | icmp =>
    obtain ⟨icmp, _, rfl⟩ := except_map_eq_ok h
    exact ⟨icmp, rfl⟩
  | udp =>
    obtain ⟨udp, _, rfl⟩ := except_map_eq_ok h
    exact ⟨udp, rfl⟩
  | tcp =>
    obtain ⟨tcp, _, rfl⟩ := except_map_eq_ok h
    exact ⟨tcp, rfl⟩

/-- The arguments the command line lets through to `run`. -/
structure RunArgs.Admitted (args : RunArgs) : Prop where
  firstHop : 1 ≤ args.first
  maxHops : 1 ≤ args.last
  count : 1 ≤ args.count.toNat ∧ args.count.toNat < maxProbesPerHop
  order : args.first < args.last

/-- The number of probes of a trace. -/
def RunArgs.probeCount (args : RunArgs) : Nat :=
  (args.last.toNat + 1 - args.first.toNat) * args.count.toNat

theorem RunArgs.length_initialProbes (args : RunArgs) :
    args.initialProbes.length = args.probeCount := Ringroute.length_initialProbes ..

theorem RunArgs.ringSize_eq (args : RunArgs) : args.ringSize = args.probeCount + 3 := by
  rw [RunArgs.ringSize, Ringroute.ringSize, args.method.queues_length, args.length_initialProbes]
  omega

theorem RunArgs.Admitted.probeCount_pos {args : RunArgs} (h : args.Admitted) :
    0 < args.probeCount := by
  have horder := UInt8.lt_iff_toNat_lt.mp h.order
  exact Nat.mul_pos (by omega) h.count.1

theorem RunArgs.Admitted.probeCount_le {args : RunArgs} (h : args.Admitted) :
    args.probeCount ≤ 255 * 9 := by
  have hlast : args.last.toNat < 256 := args.last.toNat_lt
  have hfirst := UInt8.le_iff_toNat_le.mp h.firstHop
  change 1 ≤ args.first.toNat at hfirst
  have hcount := h.count.2
  simp only [maxProbesPerHop] at hcount
  exact Nat.mul_le_mul (by omega) (Nat.le_of_lt_succ hcount)

theorem RunArgs.Admitted.probeCount_lt {args : RunArgs} (h : args.Admitted) :
    args.probeCount < 2 ^ 16 := by
  have hle := h.probeCount_le
  omega

end Ringroute
