import Offload.Config
import Offload.Extension.Document
import Offload.Files
import Offload.Trace.Event

/-!
# Where an extension table comes from

* `Source`        descriptions, the text of a document, the file of one, the builtin catalogue, or
                  nothing;
* `Source.load`   the table of a source, with what is logged: every table that is built from
                  descriptions is;
* `Recipe`        a source and the flag lists to restrict its table by, one after the other;
* `Recipe.ofConfig`  what a configuration asks for.  Without a file and without flags the flags of the
                  running processor decide.
-/

namespace Offload.Extension

inductive Source where
  | specs (specs : List Spec)
  | text (s : String)
  | file (path : String)
  | builtin
  | scalarOnly

namespace Source

/-- a table built from descriptions, which is logged -/
def built : Except Error Table → Except Error Table × List Event
  | .ok t => (.ok t, [.tableBuilt t.names])
  | .error err => (.error err, [])

def load (files : Files) : Source → Except Error Table × List Event
  | specs ss => built (Table.ofSpecs ss)
  | text s => built (Table.ofText s)
  | file path =>
    match files.read path with
    | .ok s => built (Table.ofText s)
    | .error fault => (.error (.invalidConfig s!"cannot read {path}: {fault.message}"), [])
  | builtin => built Table.builtin
  | scalarOnly => (.ok Table.scalarOnly, [])

end Source

/-- how a table is made -/
structure Recipe where
  source : Source
  restrictions : List (List String)

namespace Recipe

/-- a table restricted by several flag lists, one after the other -/
def restrictAll : Table → List (List String) → Except Error Table × List Event
  | t, [] => (.ok t, [])
  | t, flags :: rest =>
    match Source.built (t.restrict flags) with
    | (.error err, events) => (.error err, events)
    | (.ok t, events) =>
      let (result, more) := restrictAll t rest
      (result, events ++ more)

def make (files : Files) (r : Recipe) : Except Error Table × List Event :=
  match r.source.load files with
  | (.error err, events) => (.error err, events)
  | (.ok t, events) =>
    let (result, more) := restrictAll t r.restrictions
    (result, events ++ more)

/-- `present` are the flags of the running processor. -/
def ofConfig (present : List String) (c : Config) : Recipe :=
  match c.path, c.flags with
  | some path, some flags => ⟨.file path, [flags]⟩
  | some path, none => ⟨.file path, []⟩
  | none, some flags => ⟨.builtin, [flags]⟩
  | none, none => ⟨.builtin, [present]⟩

end Recipe

end Offload.Extension
