import TagExpansion.Config.Layer
import TagExpansion.Engine.Basic
import TagExpansion.Tag.Builtin

/-
This file has the configuration that a run of the program uses: a layer in which
nothing is open any more, and the engine that it makes.
-/

namespace TagExpansion

/-- A configuration in which everything is set. -/
structure Config where
  limit : Limit := .default
  format : Format := .plain
  abbreviations : Abbreviations := {}
  files : List Path := []
  diagnostics : List Diagnostic := []
  deriving Repr

/-- Sets what a layer leaves open to its default. -/
def Config.Layer.freeze (layer : Config.Layer) : Config where
  limit := layer.limit.getD .default
  format := layer.format.getD .plain
  abbreviations := .ofList layer.abbreviations.toList
  files := layer.files
  diagnostics := layer.diagnostics

namespace Config

/-- The layer that sets everything as a configuration does. -/
def thaw (config : Config) : Layer where
  limit := some config.limit
  format := some config.format
  abbreviations := .ofList config.abbreviations.toList
  files := config.files
  diagnostics := config.diagnostics

/-- The engine for the builtin tags that a configuration makes, if its limit is accepted. -/
def engine? (config : Config) (sink : Sink) : Except Limit Engine :=
  Engine.withLimit? {
    tags := .builtin config.format
    convert := .always config.format.convert
    setParagraphs := .always config.format.setParagraphs
    sink
    abbreviations := config.abbreviations } config.limit

/-- The messages of the errors that were found while loading. -/
def errors (config : Config) : List Text :=
  (config.diagnostics.filter fun diagnostic => diagnostic.severity = .error).map Diagnostic.message

end Config

end TagExpansion
