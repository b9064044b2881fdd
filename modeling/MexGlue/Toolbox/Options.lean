/-!
# Toolbox options

What the caller of a generation may set.
-/

namespace MexGlue

structure ToolboxOptions where
  /-- The namespace that the C++ files open, if it is not empty. -/
  libraryNamespace : String := ""
  /-- The ending of compiled files. -/
  mexExtension : String := "mexa64"
  /-- The flags that the make script compiles with. -/
  mexFlags : String := ""
  /-- The flags that the Makefile names, which are the same ones unless they are set apart. -/
  makefileFlags : String := mexFlags
  deriving DecidableEq, Repr

end MexGlue
