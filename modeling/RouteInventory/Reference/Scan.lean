import RouteInventory.FileSystem.Discovery
import RouteInventory.FileSystem.Reading
import RouteInventory.Reference.Scanner

/-!
# Scanning directories

The references in all files below a directory that a scanner looks into.
-/

namespace RouteInventory.Reference

/-- A file with references, named by its path below the directory scanned. -/
structure ScannedFile where
  path : String
  references : List Reference
  skipped : List String
deriving Repr

structure ScanResult where
  source : Source
  /-- Whether the directory to scan is there. -/
  rootExists : Bool
  files : List ScannedFile
deriving Repr

namespace ScanResult

def references (r : ScanResult) : List Reference := r.files.flatMap (·.references)

/-- The routes found, each once, in the order in which they were first seen. -/
def routes (r : ScanResult) : List String := (r.references.map (·.route)).eraseDups

end ScanResult

/-- The query for the files of a scanner. -/
def Scanner.query (s : Scanner) (ignored : List String) : Query where
  includeSuffixes := s.includeSuffixes
  excludeSuffixes := s.excludeSuffixes
  ignoredDirectories := ignored

/-- Scans the files below a directory. -/
def Scanner.scan (s : Scanner) (fs : FileSystem) (root : Path) (ignored : List String) :
    ScanResult where
  source := s.source
  rootExists := fs.isDirectory root
  files := (fs.discoverBelow (s.query ignored) root).filterMap fun names =>
    (fs.readLenient? (FileSystem.belowPath root names)).map fun text =>
      let path := String.intercalate "/" names
      ⟨path, s.scanText text path, s.skipped text⟩

end RouteInventory.Reference
