import ResourceQuery.Config.FileTree
import ResourceQuery.Config.Settings

/-!
# Config — Load

Where settings are found.  The file in the profile directory is the lowest layer, if there is one.
Over it lies the file the command line names, which has to exist, or else the one in the working
directory, if there is one.
-/

namespace ResourceQuery

/-- The file a directory may hold its configuration in. -/
def configFileName : String := "tabula.json"

namespace Settings

/-- The configuration file of a user. -/
def profilePath (place : Path.Place) : String :=
  String.ofList
    (Path.join (Path.join place.home.toList ".tabula".toList) configFileName.toList)

/-- The layer in a file that is there. -/
def readLayer (path : String) : Entry → Except ConfigError Layer
  | .text s =>
      match Layer.parse? s with
      | some l => .ok l
      | none => .error (.malformed path)
  | _ => .error (.unreadable path)

/-- What is odd about a layer. -/
def layerWarnings (l : Layer) : List Event :=
  if l.unknown.isEmpty then []
  else [warning "Unknown fields in config file (possible typos)"
    [("fields", String.intercalate ", " l.unknown)]]

/-- The layer of a user's own file, if there is one. -/
def profileLayer (files : Files) (place : Path.Place) : Except ConfigError (Option Layer) :=
  let path := profilePath place
  if (files path).isPresent then (readLayer path (files path)).map some else .ok none

/-- The layer of the file that is named, or of the one in the working directory. -/
def overlayLayer (files : Files) (place : Path.Place) (o : Overrides) :
    Except ConfigError (Option Layer) :=
  match o.config with
  | some p =>
      let path := Path.expand place p
      if (files path).isPresent then (readLayer path (files path)).map some
      else .error (.fileNotFound path)
  | none =>
      if (files configFileName).isPresent then
        (readLayer configFileName (files configFileName)).map some
      else .ok none

/-- An optional layer over another. -/
def overlay (high : Option Layer) (low : Layer) : Layer :=
  match high with
  | some l => l.onto low
  | none => low

/-- The layers of a profile and an overlay, one over the other. -/
def mergedLayers (profile overlay? : Option Layer) : Layer :=
  overlay overlay? (overlay profile {})

/-- What is odd about a layer that may not be there. -/
def optionalWarnings (l : Option Layer) : List Event :=
  (l.map layerWarnings).getD []

/-- The settings found, with the warnings on the way to them. -/
def load (files : Files) (place : Path.Place) (o : Overrides) :
    List Event × Except ConfigError Settings :=
  match profileLayer files place with
  | .error e => ([], .error e)
  | .ok profile =>
      match overlayLayer files place o with
      | .error e => (optionalWarnings profile, .error e)
      | .ok top =>
          let s := ofLayer (mergedLayers profile top) o
          let (events, result) := s.check
          (optionalWarnings profile ++ optionalWarnings top ++ events, result.map fun _ => s)

end Settings
end ResourceQuery
