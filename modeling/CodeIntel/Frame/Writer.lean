import CodeIntel.Frame.Problem
import CodeIntel.Json.Printer

/-!
# Writing frames
-/

namespace CodeIntel
namespace Frame

def encodeBody (body : List UInt8) : List UInt8 :=
  Utf8.encode s!"Content-Length: {body.length}\x0d\n\x0d\n" ++ body

def encodeText (body : String) : List UInt8 :=
  encodeBody (Utf8.encode body)

def encode (value : Json) : List UInt8 :=
  encodeText value.render

end Frame
end CodeIntel
