import RouteInventory.FileSystem.Discovery

/-!
# Routing files

The files that by their names declare routes, whether or not any module loads them.
-/

namespace RouteInventory

/-- The query for files with the name of a routing module. -/
def routingFileQuery (ignored : List String) : Query where
  includeSuffixes := ["-routing.module.ts", ".routing.module.ts"]
  ignoredDirectories := ignored

/-- The routing files below a directory. -/
def FileSystem.routingFiles (fs : FileSystem) (root : Path) (ignored : List String) : List Path :=
  fs.discover (routingFileQuery ignored) root

end RouteInventory
