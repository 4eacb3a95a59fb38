import CodeIntel.Text.Numeral
import CodeIntel.Text.Utf8

/-!
# What can be wrong with a frame
-/

namespace CodeIntel
namespace Frame

def maxBytes : Nat := 64 * 1024 * 1024

inductive Problem where
  | headerNotUtf8 (fault : Utf8.Fault)
  | invalidLength (value : String) (fault : Numeral.Fault)
  | missingLength
  | tooLong (length : Nat)
  | invalidBody
  /-- A problem that only its description tells. -/
  | described (text : String)
deriving DecidableEq, Repr

def Problem.message : Problem → String
  | .headerNotUtf8 fault => "header line is not UTF-8: " ++ fault.message
  | .invalidLength value fault =>
    s!"invalid Content-Length '{value}': {fault.message}"
  | .missingLength => "missing Content-Length header"
  | .tooLong length => s!"Content-Length {length} exceeds maximum {maxBytes}"
  | .invalidBody => "invalid JSON body: not a JSON value"
  | .described text => text

end Frame
end CodeIntel
