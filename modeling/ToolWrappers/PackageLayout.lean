import ToolWrappers.Path

/-! Where things lie in a package checkout. The work directory holds what is generated; the package
directories hold what is installed. -/

namespace ToolWrappers

/-- The catalogue has this name in the bundle and in the work directory. -/
def catalogueFile : String := "whitebox_tools.py"

def standardWorkDir : String := "PY2R"

structure PackageLayout where
  root : String
  work : String
deriving DecidableEq, Repr

namespace PackageLayout

/-- The layout of a package at `root` whose work directory is named relative to it. -/
def ofRoot (root workDir : String) : PackageLayout := ⟨root, Path.join root workDir⟩

def archive (l : PackageLayout) (fileName : String) : String := Path.join l.root fileName

def bundleDir (l : PackageLayout) : String := Path.join l.root "WBT"

def toolBinary (l : PackageLayout) : String := Path.join l.bundleDir "whitebox_tools"

def bundledCatalogue (l : PackageLayout) : String := Path.join l.bundleDir catalogueFile

def catalogue (l : PackageLayout) : String := Path.join l.work catalogueFile

def scriptsDir (l : PackageLayout) : String := Path.join l.work "scripts"

def testsDir (l : PackageLayout) : String := Path.join l.work "tests"

def packageFunctionsDir (l : PackageLayout) : String := Path.join l.root "R"

def packageTestsDir (l : PackageLayout) : String :=
  Path.join (Path.join l.root "tests") "testthat"

end PackageLayout

end ToolWrappers
