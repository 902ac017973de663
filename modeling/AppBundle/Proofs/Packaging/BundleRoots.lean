import AppBundle.Proofs.Packaging.Places

namespace AppBundle

/-! Portable locations and the roots of bundles. What a location has behind the placeholder only leads
on from it, so that the placeholder alone decides whether a reader stays in its bundle. One that begins
with a separator makes a place of its own, which no root can move.
-/

namespace Path

variable {base next path : Path}

/-- The components of a path go on from those of another. -/
def StartsWith (path base : Path) : Prop :=
  base.components <+: path.components

instance (path base : Path) : Decidable (path.StartsWith base) :=
  inferInstanceAs (Decidable (_ <+: _))

theorem startsWith_join (relative : next.isAbsolute = false) : (base.join next).StartsWith base := by
  by_cases empty : base.text = ""
  · have none : base.components = [] := by
      obtain ⟨text⟩ := base
      cases empty
      rfl
    rw [StartsWith, none]
    exact List.nil_prefix
  · rw [StartsWith, components_join empty relative]
    exact List.prefix_append _ _

/-- No name leads on to the root. -/
theorem not_startsWith_of_absolute (absolute : path.isAbsolute = true) :
    ¬path.StartsWith ⟨"bundle"⟩ := by
  have named : (Path.mk "bundle").components = [.name "bundle"] := by decide
  intro starts
  obtain ⟨rest, whole⟩ := starts
  rw [named, components_eq, anchor, if_pos absolute] at whole
  cases whole

end Path

variable {placeholder : Placeholder} {configuration : Configuration} {artifact : Artifact}

namespace Placeholder

theorem isAbsolute_locationFor (named : placeholder.name ≠ "") (coordinate : Coordinate) :
    (Path.mk (placeholder.locationFor coordinate)).isAbsolute =
      (Path.mk placeholder.name).isAbsolute := by
  rw [locationFor, lead, String.append_assoc, RawText.ofText_append]
  exact Path.isAbsolute_append (RawText.ofText_ne named) _

theorem startsWith_placeOf (named : placeholder.name ≠ "")
    (relative : (Path.mk placeholder.name).isAbsolute = false) (bundleRoot : Path)
    (coordinate : Coordinate) :
    (placeholder.placeOf bundleRoot coordinate).StartsWith bundleRoot := by
  rw [Path.StartsWith, components_placeOf_root named]
  exact (Path.startsWith_join relative).trans (List.prefix_append _ _)

/-- From an absolute placeholder no root leads on. -/
theorem placeOf_same_locationFor (named : placeholder.name ≠ "")
    (absolute : (Path.mk placeholder.name).isAbsolute = true) (bundleRoot : Path)
    (coordinate : Coordinate) :
    (placeholder.placeOf bundleRoot coordinate).SameComponents ⟨placeholder.locationFor coordinate⟩ := by
  rw [Path.SameComponents, components_placeOf_root named, Path.join, if_pos absolute, locationFor, lead,
    RawText.ofText_append, RawText.ofText_append, Path.components_separated,
    Path.components_separator (RawText.ofText_ne named)]

end Placeholder

/-- Locations are written relative, and read below every root, exactly where the configured placeholder
is relative. Of an absolute one, which is accepted as well, the location is the place that every reader
comes to, whatever its root. -/
theorem Configuration.bundled_locations (valid : configuration.validate = .ok ())
    (notDomain : artifact.coordinate.isDomain = false) :
    ∃ location : String, (configuration.placeholder.parameterize artifact).location = some location ∧
      ((Path.mk location).isRelative = true ↔
        (Path.mk configuration.repositoryPlaceholder).isRelative = true) ∧
      ((∀ bundleRoot, (configuration.placeholder.resolve bundleRoot location).StartsWith bundleRoot) ↔
        (Path.mk configuration.repositoryPlaceholder).isRelative = true) ∧
      ((Path.mk configuration.repositoryPlaceholder).isRelative = false →
        ∀ bundleRoot,
          (configuration.placeholder.resolve bundleRoot location).SameComponents ⟨location⟩) := by
  have named := configuration.placeholder_named valid
  have begun : (Path.mk configuration.placeholder.name).isAbsolute =
      (Path.mk configuration.repositoryPlaceholder).isAbsolute :=
    Path.isAbsolute_congr (Placeholder.sameComponents_ofText named)
  have written := configuration.placeholder.isAbsolute_locationFor named artifact.coordinate
  refine ⟨configuration.placeholder.locationFor artifact.coordinate, ?_, ?_, ?_, ?_⟩
  · rw [Placeholder.parameterize, notDomain]
    rfl
  · rw [Path.isRelative, Path.isRelative, written, begun]
  · constructor
    · intro starts
      -- an absolute place does not go on from a relative root
      cases absolute : (Path.mk configuration.repositoryPlaceholder).isAbsolute with
      | false => rw [Path.isRelative, absolute]; rfl
      | true =>
          have placed := Path.isAbsolute_congr (Placeholder.placeOf_same_locationFor named
            (begun.trans absolute) ⟨"bundle"⟩ artifact.coordinate)
          rw [written, begun, absolute] at placed
          exact absurd (starts ⟨"bundle"⟩) (Path.not_startsWith_of_absolute placed)
    · intro relative bundleRoot
      rw [Path.isRelative, Bool.not_eq_true'] at relative
      exact Placeholder.startsWith_placeOf named (begun.trans relative) bundleRoot _
  · intro absolute bundleRoot
    rw [Path.isRelative, Bool.not_eq_false'] at absolute
    exact Placeholder.placeOf_same_locationFor named (begun.trans absolute) bundleRoot _

/-- A placeholder that leads up and ends with separators, and a group that begins with a dot. -/
theorem Configuration.bundled_locations_outward :
    let configuration := { Configuration.default with repositoryPlaceholder := "./../libs//" }
    let artifact : Artifact :=
      ⟨⟨".g", "..", "1.0", "jar", none, none⟩, some "/m2/a.jar", false, .empty, .empty⟩
    configuration.validate = .ok () ∧ artifact.coordinate.isDomain = false ∧
      ∃ location : String, (configuration.placeholder.parameterize artifact).location = some location ∧
        (Path.mk location).isRelative = true ∧
        ∀ bundleRoot,
          (configuration.placeholder.resolve bundleRoot location).StartsWith bundleRoot := by
  intro configuration artifact
  have valid : configuration.validate = .ok () := by decide +kernel
  have notDomain : artifact.coordinate.isDomain = false := by decide
  have relative : (Path.mk configuration.repositoryPlaceholder).isRelative = true := by decide
  obtain ⟨location, written, isRelative, starts, _⟩ := bundled_locations valid notDomain
  exact ⟨valid, notDomain, location, written, isRelative.mpr relative, starts.mpr relative⟩

/-- A placeholder that begins with a separator is accepted. What is written with it is an absolute place,
and a reader of the bundle looks for the payload there. -/
theorem Configuration.bundled_locations_absolute :
    let configuration := { Configuration.default with repositoryPlaceholder := "/libs" }
    let artifact : Artifact :=
      ⟨⟨"g", "lib", "1.0", "jar", none, none⟩, some "/m2/lib.jar", false, .empty, .empty⟩
    let bundleRoot : Path := ⟨"bundle"⟩
    configuration.validate = .ok () ∧ artifact.coordinate.isDomain = false ∧
      ∃ location : String, (configuration.placeholder.parameterize artifact).location = some location ∧
        (Path.mk location).isRelative = false ∧
        configuration.placeholder.resolve bundleRoot location = ⟨"/libs/g/lib/1.0/lib-1.0.jar"⟩ ∧
        ¬(configuration.placeholder.resolve bundleRoot location).StartsWith bundleRoot := by
  intro configuration artifact bundleRoot
  exact ⟨by decide +kernel, by decide, "/libs/g/lib/1.0/lib-1.0.jar", by decide +kernel, by decide,
    by decide +kernel, by decide +kernel⟩

end AppBundle
