import CrawlBoard.Text.Percent

namespace CrawlBoard.UrlEscape

def control (byte : UInt8) : Bool := byte < 0x20 || 0x7F ≤ byte

def among (chars : String) (byte : UInt8) : Bool :=
  chars.toList.any fun char => char.toNat = byte.toNat

def fragment (byte : UInt8) : Bool := control byte || among " \"<>`" byte

def path (byte : UInt8) : Bool := fragment byte || among "#?\x7b\x7d" byte

def user (byte : UInt8) : Bool := path byte || among "/:;=@[\\]^|" byte

def query (byte : UInt8) : Bool := control byte || among " \"#<>" byte

/-- Schemes of the web escape a single quote as well. -/
def specialQuery (byte : UInt8) : Bool := query byte || byte == 0x27

def apply (escaped : UInt8 → Bool) (text : List Char) : String :=
  String.ofList ((Utf8.encode (String.ofList text)).flatMap fun byte =>
    if escaped byte then Percent.escape byte else [Char.ofNat byte.toNat])

end CrawlBoard.UrlEscape
