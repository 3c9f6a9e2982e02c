import ToolWrappers.Tool.Basic

/-! The test file of a tool that takes an input and an output: it runs the wrapper on the sample
raster and looks for the mark of success. -/

namespace ToolWrappers.TestStub

/-- What every successful tool run prints. -/
def successMark : String := "Elapsed Time"

def fileName (wrapper : String) : String := "test-" ++ wrapper ++ ".R"

/-- The characters of an R string in double quotes: a backslash goes before every backslash and
every double quote. -/
def escape (s : List Char) : List Char :=
  s.flatMap fun c => if c = '\\' || c = '"' then ['\\', c] else [c]

def labelLine (t : Tool) : String :=
  "test_that(\"" ++ .ofList (escape t.label.toList) ++ "\", \x7b"

def lines (t : Tool) (wrapper : String) : List String :=
  ["context(\"" ++ wrapper ++ "\")", "", labelLine t, "", "  skip_on_cran()",
    "  skip_if_not(check_whitebox_binary())",
    "  dem <- system.file(\"extdata\", \"DEM.tif\", package = \"whitebox\")",
    "  ret <- " ++ wrapper ++ "(input = dem, output = \"output.tif\")",
    "  expect_match(ret, \"" ++ successMark ++ "\")", "", "\x7d)"]

end ToolWrappers.TestStub
