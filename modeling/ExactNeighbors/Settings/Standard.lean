import ExactNeighbors.Toml.Document

/-!
# The standard engine

Files are JSON or TOML, by their extension; there are no other formats. Layers are laid over one
another entry by entry.
-/
namespace ExactNeighbors

namespace Settings

inductive Format where
  | json
  | toml
deriving DecidableEq, Repr

namespace Format

def extension : Format → String
  | .json => "json"
  | .toml => "toml"

def all : List Format := [.json, .toml]

def ofExtension? (extension : String) : Option Format := all.find? (·.extension = extension)

def layer? (format : Format) (text : String) : Option (Layer Setting) :=
  match format with
  | .json => (Json.ofText? text).bind Layer.ofJson?
  | .toml => Toml.ofText? text

end Format

/-- Paths behind which a settings file is looked for if there is no file behind the path itself:
one with each extension. -/
def candidates (path : String) : List (Format × String) :=
  match Files.trimmed? path with
  | none => []
  | some stem => Format.all.map fun f => (f, stem ++ "." ++ f.extension)

/-- A settings file by its path. A file whose own extension belongs to no format is malformed. -/
def file? (files : Files) (path : String) : Option (Option (Layer Setting)) :=
  match files path with
  | some text =>
    some (((Files.extension? path).bind Format.ofExtension?).bind fun format => format.layer? text)
  | none =>
    (candidates path).findSome? fun (format, path) =>
      (files path).map fun text => format.layer? text

end Settings

namespace Engine

def standard : Engine Setting where
  ofSize n := .int n
  ofBool := .bool
  ofText := .text
  size? := Setting.size?
  bool? := Setting.bool?
  text? := Setting.text?
  file? := Settings.file?
  environment := Layer.ofEnvironment
  merge? layers := layers.foldlM Layer.over? []
  size?_ofSize n _ := Setting.size?_ofNat n
  bool?_ofBool _ := rfl
  text?_ofText _ := rfl

end Engine
end ExactNeighbors
