import ToolWrappers.Usage.Fixup

/-! The fixup table that comes with the program. -/

namespace ToolWrappers

/-- Short flags are widened for every tool; the rules mend the examples of single tools. -/
def FixupTable.builtin : FixupTable where
  always :=
    [.replace "-i=" "--input=", .replace "-o=" "--output=", .replace "--filter=25" "",
      .replace ";" " "]
  rules :=
    [⟨["average_flowpath_slope", "average_upslope_flowpath_length", "directional_relief",
        "elevation_above_stream_euclidean", "fetch_analysis", "hillshade", "horizon_angle",
        "longest_flowpath", "max_upslope_flowpath_length", "num_inflowing_neighbours",
        "num_downslope_neighbours", "num_upslope_neighbours", "percent_elev_range"],
      [.replace "input" "dem"]⟩,
    ⟨["write_function_memory_insertion"], [.replace "-i" "--i"]⟩,
    ⟨["cross_tabulation", "histogram_matching_two_images", "image_regression",
        "line_intersections", "write_function_memory_insertion", "lidar_kappa_index",
        "kappa_index", "join_tables"],
      [.replace "--i1" "--input1", .replace "--i2" "--input2"]⟩,
    ⟨["average_overlay"], [.replace "input" "inputs"]⟩,
    ⟨["corner_detection"], [.replace "--sigma=2.0" ""]⟩,
    ⟨["buffer_raster"], [.append "--size=5"]⟩,
    ⟨["d_inf_pointer"], [.append "--output=output.tif"]⟩,
    ⟨["difference", "dissolve", "intersect"], [.replace "-input" "--input"]⟩,
    ⟨["extract_raster_values_at_points"],
      [.replace "-points" "--points", .replace "input" "inputs"]⟩,
    ⟨["find_parallel_flow"], [.append "--streams=streams.tif"]⟩,
    ⟨["lidar_block_minimum", "lidar_block_maximum", "flightline_overlap"],
      [.replaceFirst "--input=file.las --output=outfile.tif" "",
        .replace "--palette=light_quant.plt" ""]⟩,
    ⟨["k_nearest_mean_filter"], [.replace "--filter=9 -k=5" ""]⟩,
    ⟨["las_to_ascii"], [.set "inputs=\"file1.las file2.las file3.las\""]⟩,
    ⟨["lee_filter"], [.set "--input=\"image.tif\" --output=\"output.tif\""]⟩]

end ToolWrappers
