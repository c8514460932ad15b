import MetricLayer.Catalog.Feed
import MetricLayer.Value.Flow

/-!
# Catalog files

A directory of catalog files fills a registry: the files with a catalog ending are registered in
the order of their names, and the first fault ends the loading.  A directory holds one file of a
name, the one written last.
-/

namespace MetricLayer

open MetricLayer.Text

/-- A file of a directory. -/
structure CatalogFile where
  name : String
  content : String
deriving Repr

/-- The ending of a file name from its last point on; a point at either end of the name starts
none. -/
def CatalogFile.ending (f : CatalogFile) : String :=
  match splitOn '.' f.name.toList with
  | [] => ""
  | first :: rest =>
    match rest.getLast? with
    | none => ""
    | some last =>
      if last.isEmpty || (first.isEmpty && rest.length == 1) then ""
      else String.ofList ('.' :: last)

/-- The file holds a catalog. -/
def CatalogFile.isCatalog (f : CatalogFile) : Bool :=
  [".yml", ".yaml", ".json"].contains f.ending

/-- Why a file yields no catalog. -/
inductive CatalogFileFault where
  | unreadable (f : Flow.Fault)
  | refused (f : FeedFault)
deriving Repr, DecidableEq

/-- The byte order mark, which may stand in front of the content of a file. -/
def byteOrderMark : Char := '\uFEFF'

/-- The feed a file holds, in flow notation: nothing is null, and what starts neither with a mark nor
with a quoted text is a plain text. -/
def CatalogFile.feed (f : CatalogFile) : Except CatalogFileFault Value :=
  if f.content.toList.all Flow.isCharacter then
    let cs := ([byteOrderMark].isPrefixOf? f.content.toList).getD f.content.toList
    match Flow.skip cs with
    | [] => .ok .null
    | c :: _ =>
      if Flow.isMark c || c == '"' || c == '\t' then (Flow.read cs).mapError .unreadable
      else .ok (.text f.content)
  else .error (.unreadable .noText)

/-- The catalog a file holds. -/
def CatalogFile.catalog (f : CatalogFile) : Except CatalogFileFault Catalog := do
  (Catalog.ofFeed (← f.feed)).mapError .refused

/-- The files that are left after writing each in turn. -/
def CatalogFile.written (files : List CatalogFile) : List CatalogFile :=
  (files.foldl (fun held f => putEntry f.name f.content held) []).map fun (name, content) =>
    ⟨name, content⟩

/-- The registry of the catalog files of a directory. -/
def Registry.ofFiles (files : List CatalogFile) : Except CatalogFileFault Registry :=
  let kept := (CatalogFile.written files).filter CatalogFile.isCatalog
  let chosen := kept.mergeSort fun a b => textLe a.name b.name
  chosen.foldlM (fun r f => do
    (r.register (← f.catalog)).mapError fun e => .refused (.rejected e)) {}

end MetricLayer
