import Ringroute.Answers
import Ringroute.Attribution
import Ringroute.Sizing

namespace Ringroute
open Library
set_option autoImplicit true

inductive IpVersionArg where
  | auto
  | v4
  | v6
  deriving DecidableEq, Repr

/-- The arguments, in the ranges that the parser of the command line lets through. -/
structure Args where
  target : String
  firstHop : UInt8
  maxHops : UInt8
  timeout : Duration
  size : Nat
  method : MethodArg
  ipVersion : IpVersionArg
  count : UInt16
  firstHop_pos : 1 ≤ firstHop
  maxHops_pos : 1 ≤ maxHops
  count_range : 1 ≤ count.toNat ∧ count.toNat < maxProbesPerHop

/-- How text is read as an address, and what the resolver answers. -/
structure Resolver where
  parseSocketAddr : String → Option SocketAddr
  parseIpAddr : String → Option IpAddr
  toSocketAddrs : String → Except String (List SocketAddr)

def IpAddr.isIpv6 (addr : IpAddr) : Bool := !addr.isIpv4

def ipVersionMatches (addr : IpAddr) : IpVersionArg → Bool
  | .auto => true
  | .v4 => addr.isIpv4
  | .v6 => addr.isIpv6

section Main

variable (resolver : Resolver)

/-- Returns `some` if `addr` is an IP address, or `none` otherwise. -/
def maybeIp (addr : String) : Option IpAddr :=
  match resolver.parseSocketAddr addr with
  | some addr => some addr.ip
  | none => resolver.parseIpAddr addr

/-- The part of `main` that finds the address to trace. -/
def findTarget (args : Args) : Except String IpAddr :=
  match maybeIp resolver args.target with
  | some addr =>
    if ipVersionMatches addr args.ipVersion then .ok addr
    else .error "--target IP version does not match --ip-version "
  | none => do
    let answers ← resolver.toSocketAddrs (args.target ++ ":0")
    match answers.find? fun addr => ipVersionMatches addr.ip args.ipVersion with
    | none => .error "DNS lookup returned no answers matching the requested --ip-version"
    | some addr => .ok addr.ip

/-- The part of `main` before the trace: the arguments of `run`, or the error to exit with. -/
def main (pnet : Pnet) (system : TcpSystem) (args : Args) : Except String RunArgs :=
  if args.maxHops ≤ args.firstHop then .error "--first-hop must be less than --max-hops"
  else do
    let target ← findTarget resolver args
    let method ← args.method.build pnet system target args.size
    return {
      method := method
      first := args.firstHop
      last := args.maxHops
      timeout := args.timeout
      count := args.count }

end Main

/-- The length of the IP packet that a datagram is sent in. -/
def MethodArg.packetLen (arg : MethodArg) (target : IpAddr) (datagram : Bytes) : Nat :=
  ipHeaderLen target + (match arg with
    | .udp => udpHeaderLen
    | _ => 0) + datagram.length

section Target

variable {resolver : Resolver} {args : Args}

end Target

section Probes

variable {arg : MethodArg} {pnet : Pnet} {system : TcpSystem} {target : IpAddr} {packetLen : Nat}
  {method : Method}

end Probes

section Sends

variable {resolver : Resolver} {pnet : Pnet} {system : TcpSystem} {args : Args} {run : RunArgs}

theorem main_ok (h : main resolver pnet system args = .ok run) :
    args.firstHop < args.maxHops ∧ ∃ target method, findTarget resolver args = .ok target ∧
      args.method.build pnet system target args.size = .ok method ∧
      run = ⟨method, args.firstHop, args.maxHops, args.timeout, args.count⟩ := by
  rw [main] at h
  split at h
  · cases h
  · rename_i horder
    refine ⟨UInt8.not_le.mp horder, ?_⟩
    cases htarget : findTarget resolver args with
    | error e =>
      rw [htarget] at h
      cases h
    | ok target =>
      rw [htarget, ok_bind] at h
      cases hbuild : args.method.build pnet system target args.size with
      | error e =>
        rw [hbuild] at h
        cases h
      | ok method =>
        rw [hbuild] at h
        cases h
        exact ⟨target, method, rfl, hbuild, rfl⟩

theorem main_admitted (h : main resolver pnet system args = .ok run) : run.Admitted := by
  obtain ⟨horder, target, method, _, _, rfl⟩ := main_ok h
  exact ⟨args.firstHop_pos, args.maxHops_pos, args.count_range, horder⟩

/-- A resolver that knows one address. -/
def loopbackResolver : Resolver where
  parseSocketAddr _ := none
  parseIpAddr addr := if addr = "127.0.0.1" then some loopbackAddr else none
  toSocketAddrs _ := .error "failed to lookup address information"

def loopbackArgs : Args where
  target := "127.0.0.1"
  firstHop := 1
  maxHops := 2
  timeout := 5000000000
  size := 60
  method := .icmp
  ipVersion := .auto
  count := 1
  firstHop_pos := by decide
  maxHops_pos := by decide
  count_range := by decide

end Sends

end Ringroute
