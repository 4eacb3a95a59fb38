import CodeIntel.Report.Excerpt
import CodeIntel.Sorting
import CodeIntel.Url.Map

/-!
# Reports on references

References are grouped by file. Files come in the order of their URLs, the
ranges of a file in the order of their starts.
-/

namespace CodeIntel
namespace References

def startsAtMost (a b : Range) : Bool :=
  a.start.atMost b.start

def collect (locations : List Location) : UrlMap (List Range) :=
  locations.foldl (fun files l =>
    UrlMap.update l.uri [] (· ++ [l.range]) files) []

def byFile (locations : List Location) : UrlMap (List Range) :=
  (collect locations).map fun (uri, ranges) =>
    (uri, Sorting.sortBy startsAtMost ranges)

end References

namespace Report

/-- The section of one file. A file that cannot be read loses only its
excerpts. -/
def fileReferences (path : FilePath) (content : Option String)
    (ranges : List Range) (context : Nat) : String :=
  let excerpts := match content with
    | none => ""
    | some content =>
      String.join (ranges.map fun r =>
        line (Excerpt.around content (Position.ordinal r.start.line)
          context true))
  "---\n\n" ++ line path.text ++ line s!"References in File: {ranges.length}" ++
    line s!"At: {startsText ranges}\n" ++ excerpts

end Report
end CodeIntel
