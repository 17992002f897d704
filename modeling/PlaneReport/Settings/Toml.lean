import PlaneReport.Settings
import PlaneReport.Toml.Printer

/-!
# Settings as TOML

The text in which settings are saved and shown.
-/

namespace PlaneReport

namespace Point

def tomlPairs (p : Point) : List (String × Toml.Scalar) :=
  [("x", .number p.x), ("y", .number p.y)]

def tomlText (p : Point) : String :=
  Toml.documentText p.tomlPairs []

end Point

namespace Settings

/-- The sections of the saved text; without a precision the output section is empty. -/
def tomlText (s : Settings) : String :=
  Toml.documentText [("version", .integer s.version.toNat)]
    [⟨["inputs"], [("a", .integer s.inputs.a.toInt), ("b", .integer s.inputs.b.toInt)]⟩,
      ⟨["inputs", "from"], s.inputs.source.tomlPairs⟩,
      ⟨["inputs", "to"], s.inputs.target.tomlPairs⟩,
      ⟨["output"],
        match s.precision with
        | none => []
        | some places => [("precision", .integer places.toNat)]⟩,
      ⟨["logging"], [("level", .string s.level)]⟩]

end Settings
end PlaneReport
