import CodeIntel.Capabilities

/-!
# What we tell an agent about ourselves
-/

namespace CodeIntel

namespace Agent

/-- How the tools are to be used; the server is named if it has told its
name. -/
def instructions (c : Capabilities) : String :=
  let server := c.serverName.getD "the language server"
  s!"Semantic code intelligence backed by {server}. " ++
    "Look symbols up by name with definition and references; " ++
    "position-based tools take 1-indexed lines and columns. " ++
    "Tools the server does not support report an error instead of guessing."

end Agent
end CodeIntel
