namespace Ringroute
set_option autoImplicit true

/-- Provides information about a failed probe delivery. -/
inductive Unreachable where
  | marker (name : String)
  | code (code : UInt8)
  | other (icmpType code : UInt8)
  | tooBig (mtu : UInt32)
  deriving DecidableEq, Repr

/-- How `traceroute` prints a failed delivery. -/
def Unreachable.display : Unreachable → String
  | .marker name => name
  | .code c => "!<" ++ toString c ++ ">"
  | .other icmpType c => "!<" ++ toString icmpType ++ "-" ++ toString c ++ ">"
  | .tooBig mtu => "!F-" ++ toString mtu

/-- Indicates what a reply means for the trace. -/
inductive ReplyKind where
  | hop
  | destination
  | unreachable (reason : Unreachable)
  deriving DecidableEq, Repr

def ReplyKind.terminatesTrace : ReplyKind → Bool
  | .destination => true
  | _ => false

namespace V4

@[match_pattern] abbrev echoRequest : UInt8 := 8
@[match_pattern] abbrev destUnreach : UInt8 := 3
@[match_pattern] abbrev timeExceeded : UInt8 := 11

end V4

namespace V6

@[match_pattern] abbrev echoRequest : UInt8 := 128
@[match_pattern] abbrev destUnreach : UInt8 := 1
@[match_pattern] abbrev packetTooBig : UInt8 := 2
@[match_pattern] abbrev timeExceeded : UInt8 := 3

end V6

/-- An ICMP error reported through the socket error queue. -/
inductive IcmpError where
  | v4 (icmpType code : UInt8) (info : UInt32)
  | v6 (icmpType code : UInt8) (info : UInt32)
  deriving DecidableEq, Repr

def IcmpError.kind : IcmpError → ReplyKind
  | .v4 icmpType code info =>
    match icmpType, code with
    | V4.timeExceeded, 0 => .hop
    -- "Port Unreachable" should only come from the destination.
    | V4.destUnreach, 3 => .destination
    | V4.destUnreach, 0 | V4.destUnreach, 6 | V4.destUnreach, 8 | V4.destUnreach, 11 =>
      .unreachable (.marker "!N")
    | V4.destUnreach, 1 | V4.destUnreach, 7 | V4.destUnreach, 12 => .unreachable (.marker "!H")
    | V4.destUnreach, 9 | V4.destUnreach, 10 | V4.destUnreach, 13 => .unreachable (.marker "!X")
    | V4.destUnreach, 2 => .unreachable (.marker "!P")
    | V4.destUnreach, 4 => .unreachable (.tooBig info)
    | V4.destUnreach, 5 => .unreachable (.marker "!S")
    | V4.destUnreach, 14 => .unreachable (.marker "!V")
    | V4.destUnreach, 15 => .unreachable (.marker "!C")
    | V4.destUnreach, code => .unreachable (.code code)
    | icmpType, code => .unreachable (.other icmpType code)
  | .v6 icmpType code info =>
    match icmpType, code with
    | V6.timeExceeded, 0 => .hop
    -- "Port Unreachable" should only come from the destination.
    | V6.destUnreach, 4 => .destination
    | V6.destUnreach, 0 => .unreachable (.marker "!N")
    | V6.destUnreach, 1 => .unreachable (.marker "!X")
    | V6.destUnreach, 2 | V6.destUnreach, 3 => .unreachable (.marker "!H")
    | V6.destUnreach, code => .unreachable (.code code)
    | V6.packetTooBig, _ => .unreachable (.tooBig info)
    | icmpType, code => .unreachable (.other icmpType code)

end Ringroute
