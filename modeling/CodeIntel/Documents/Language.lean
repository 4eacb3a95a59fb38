import CodeIntel.Disk.Path

/-!
# Languages of files
-/

namespace CodeIntel
namespace Language

def byExtension : List (String × String) :=
  [("rs", "rust"), ("py", "python"), ("pyi", "python"), ("js", "javascript"),
    ("mjs", "javascript"), ("cjs", "javascript"), ("jsx", "javascriptreact"),
    ("ts", "typescript"), ("mts", "typescript"),
    ("cts", "typescript"), ("tsx", "typescriptreact"), ("go", "go"), ("c", "c"),
    ("h", "c"), ("cpp", "cpp"), ("cc", "cpp"), ("cxx", "cpp"), ("hpp", "cpp"),
    ("hh", "cpp"), ("hxx", "cpp"),
    ("java", "java"), ("rb", "ruby"), ("cs", "csharp"), ("lua", "lua"),
    ("sh", "shellscript"), ("bash", "shellscript"), ("json", "json"),
    ("toml", "toml"), ("yaml", "yaml"), ("yml", "yaml"), ("md", "markdown")]

def plain : String := "plaintext"

def ofPath (p : FilePath) : String :=
  match p.extension?.bind Utf8.decode? with
  | some extension => (byExtension.lookup extension).getD plain
  | none => plain

end Language
end CodeIntel
