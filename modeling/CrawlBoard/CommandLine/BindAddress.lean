import CrawlBoard.Text.Digits
import CrawlBoard.Url.Host

namespace CrawlBoard

structure BindAddress where
  host : String
  port : UInt16
  deriving DecidableEq, Repr

structure SocketAddress where
  host : Host
  port : UInt16
  deriving DecidableEq, Repr

def SocketAddress.text (address : SocketAddress) : String :=
  let host := match address.host with
    | .ipv6 [0, 0, 0, 0, 0, 0xFFFF, high, low] =>
        "[::ffff:" ++ Host.ipv4Text (high.toUInt32 * 65536 + low.toUInt32) ++ "]"
    | host => host.text
  host ++ ":" ++ toString address.port.toNat

inductive BindError where
  | empty
  | unknownHost
  deriving DecidableEq, Repr

def BindError.message : BindError → String
  | .empty => "Empty bind address"
  | .unknownHost => "failed to lookup address information: Name or service not known"

namespace BindAddress

def defaultHost : String := "127.0.0.1"

def defaultPort : UInt16 := 3030

def port? (text : String) : Option UInt16 := (Digits.parse 65535 text).toOption.map UInt16.ofNat

/-- A port stands behind the last colon; without one all of the text is the host. -/
def parse (text : String) : Except BindError BindAddress :=
  if text.isEmpty then .error .empty
  else match port? text with
    | some port => .ok ⟨defaultHost, port⟩
    | none =>
        let parts := Search.splitOn ':' text.toList
        match parts.getLast?.bind fun last => port? (String.ofList last) with
        | some port =>
            if parts.length = 1 then .ok ⟨text, defaultPort⟩
            else .ok ⟨String.ofList (List.intercalate [':'] parts.dropLast), port⟩
        | none => .ok ⟨text, defaultPort⟩

def ipv4? (text : List Char) : Option Host :=
  match (Search.splitOn '.' text).map Host.octet? with
  | [some a, some b, some c, some d] =>
      some (.ipv4 (UInt32.ofNat (a * 0x1000000 + b * 0x10000 + c * 0x100 + d)))
  | _ => none

def resolve (address : BindAddress) : Except BindError SocketAddress :=
  let host := address.host.toList
  let known := if address.host = "localhost" then ipv4? defaultHost.toList else none
  match known <|> ipv4? host <|> (Host.ipv6? host).map Host.ipv6 with
  | some host => .ok ⟨host, address.port⟩
  | none => .error .unknownHost

end BindAddress

end CrawlBoard
