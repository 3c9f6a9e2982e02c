import ToolWrappers.Text.Search

/-! What one generation run is told: where the catalogue begins, which toolbox goes to which
script, how wrappers are named, and which tools get no sample run. -/

namespace ToolWrappers

/-- A toolbox is announced by its header and written to one script. With `examples`, its tools may
get sample runs. -/
structure Toolbox where
  header : String
  fileName : String
  examples : Bool := false
deriving DecidableEq, Repr

/-- The toolboxes of the published catalogue. -/
def standardToolboxes : List Toolbox :=
  [⟨"# Data Tools #", "data_tools.R", false⟩,
    ⟨"# GIS Analysis #", "gis_analysis.R", false⟩,
    ⟨"# Geomorphometric Analysis #", "terrain_analysis.R", false⟩,
    ⟨"# Hydrological Analysis #", "hydro_analysis.R", false⟩,
    ⟨"# Image Processing Tools #", "image_analysis.R", false⟩,
    ⟨"# LiDAR Tools #", "lidar_analysis.R", false⟩,
    ⟨"# Machine Learning #", "machine_learning.R", false⟩,
    ⟨"# Math and Stats Tools #", "math_stat_analysis.R", true⟩,
    ⟨"# Precision Agriculture #", "precision_agriculture.R", false⟩,
    ⟨"# Stream Network Analysis #", "stream_network_analysis.R", false⟩]

/-- How many lines of the published catalogue come before its first toolbox. -/
def standardPreamble : Nat := 567

structure Settings where
  skipLines : Nat := standardPreamble
  toolboxes : List Toolbox := standardToolboxes
  wrapperPrefix : String := "wbt_"
  testExclusions : List String :=
    ["raster_histogram", "attribute_correlation", "conditional_evaluation", "crispness_index",
      "ks_test_for_normality", "rescale_value_range", "trend_surface"]
  exampleExclusions : List String := ["raster_histogram"]
deriving DecidableEq, Repr

namespace Settings

/-- The toolbox announced by a trimmed line: the first of the table with exactly this header. -/
def toolbox? (s : Settings) (line : String) : Option Toolbox :=
  s.toolboxes.find? (·.header = line)

def wrapperName (s : Settings) (command : String) : String := s.wrapperPrefix ++ command

def wantsTest (s : Settings) (command : String) : Bool := !s.testExclusions.contains command

def wantsExample (s : Settings) (command : String) : Bool := !s.exampleExclusions.contains command

end Settings

end ToolWrappers
