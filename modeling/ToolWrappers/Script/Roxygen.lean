import ToolWrappers.Tool.Basic

/-! The documentation block in front of a wrapper: comment lines that begin with `#'`. -/

namespace ToolWrappers.Roxygen

def mark (text : String) : String := "#' " ++ text

def emptyLine : String := "#'"

/-- The documentation of the implicit options, which no tool documents itself. -/
def implicitParams : List String :=
  ["wd Changes the working directory.",
    "verbose_mode Sets verbose mode. If verbose mode is False, " ++
      "tools will not print output messages.",
    "compress_rasters Sets the flag used by WhiteboxTools to determine " ++
      "whether to use compression for output rasters."]

/-- The sample call shown for a tool that takes an input and an output. -/
def exampleLines (wrapper : String) : List String :=
  [emptyLine, mark "@examples", mark "\\dontrun\x7b",
    mark "dem <- system.file(\"extdata\", \"DEM.tif\", package=\"whitebox\")",
    mark (wrapper ++ "(input = dem, output = 'output.tif')"), mark "\x7d"]

/-- The block of a tool; with `sample`, it ends with a sample call of that wrapper. -/
def lines (t : Tool) (sample : Option String) : List String :=
  [mark t.title, emptyLine]
    ++ (match t.doc.summary with
      | some summary => [mark summary, emptyLine]
      | none => [])
    ++ (t.doc.params ++ implicitParams).map (fun p => mark ("@param " ++ p))
    ++ [emptyLine, mark "@return Returns the tool text outputs.", mark "@export"]
    ++ (match sample with
      | some wrapper => exampleLines wrapper
      | none => [])

end ToolWrappers.Roxygen
