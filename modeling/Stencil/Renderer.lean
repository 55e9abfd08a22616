import Stencil.Files.Tree
import Stencil.Log
import Stencil.Segment.Listing
import Stencil.Template

/-!
Rendering with a cache. Under a file name the cache keeps the compiled template, and under the name
with `:string` after it the text that was read; nothing leaves the cache but all of it at once.
-/

namespace Stencil

inductive Cached where
  | source (text : String)
  | template (t : Template)

abbrev Cache := Table Cached

namespace Cache

/-- The key of the text of a file. -/
def sourceKey (path : String) : String := path ++ ":string"

def template? (c : Cache) (key : String) : Option Template :=
  match c.get? key with
  | some (.template t) => some t
  | _ => none

def source? (c : Cache) (key : String) : Option String :=
  match c.get? key with
  | some (.source text) => some text
  | _ => none

end Cache

/-- What rendering changes: the cache, the number of compilations, the stamp that the next template
gets, and the log. -/
structure Desk where
  cache : Cache
  compiles : Nat
  stamp : Nat
  log : List Log.Entry

def Desk.new : Desk := ⟨∅, 0, 0, []⟩

/-- A computation with a desk, which is kept when the computation fails. -/
abbrev Rendering := EStateM TemplateError Desk

/-- What compiling tells the log: in debugging, the listing of the segments. -/
def Template.logged (source : String) (options : Options) : List Log.Entry :=
  if options.debug then
    match Template.parse source options with
    | .ok segments =>
      [⟨.info, Log.programName ++ "::template::compiler", "中间过程体：\n" ++ Segment.listing segments,
        [("filename", Text.quoted (options.filename.getD "ejs"))]⟩]
    | .error _ => []
  else []

namespace Rendering

variable {α : Type}

def lift (r : Except TemplateError α) : Rendering α :=
  match r with
  | .ok a => pure a
  | .error e => throw e

/-- Compiles without the cache. -/
def compile (env : Environment) (source : String) (options : Options) : Rendering Template := do
  let desk ← get
  set { desk with
    compiles := desk.compiles + 1
    stamp := desk.stamp + 1
    log := desk.log ++ Template.logged source options }
  lift (Template.compile desk.stamp source options env)

def keep (key : String) (entry : Cached) : Rendering Unit :=
  modify fun desk => { desk with cache := desk.cache.insert key entry }

/-- The template for a source: with the cache on, the one that is kept under the file name. -/
def templateFor (env : Environment) (source : String) (options : Options) :
    Rendering Template := do
  if options.cache then
    match options.filename with
    | none => throw .cacheWithoutFilename
    | some filename =>
      match (← get).cache.template? filename with
      | some t => pure t
      | none => do
        let t ← compile env source options
        keep filename (.template t)
        pure t
  else compile env source options

def render (env : Environment) (source : String) (options : Options) : Rendering String := do
  let t ← templateFor env source options
  lift (t.render options)

/-- The text of a file: with the cache on, the one that is kept. -/
def sourceOf (files : FileTree) (path : String) (cache : Bool) : Rendering String := do
  let desk ← get
  match if cache then desk.cache.source? (Cache.sourceKey path) else none with
  | some text => pure text
  | none =>
    match files.read path with
    | .error fault => throw (.unreadable path fault)
    | .ok text => do
      if cache then keep (Cache.sourceKey path) (.source text)
      pure text

/-- Renders a file under its path as the file name. -/
def renderFile (env : Environment) (files : FileTree) (path : String) (options : Options) :
    Rendering String := do
  let source ← sourceOf files path options.cache
  render env source { options with filename := some path }

/-- The path of a layout: below the directory of views, with the extension `ejs` if it has none. -/
def layoutPath (views : Option String) (layout : String) : String :=
  Path.withExtension (Path.join (views.getD ".") layout) "ejs"

/-- Renders a file, and then its layout with the result as the variable `body`. -/
def renderView (env : Environment) (files : FileTree) (path : String) (options : Options) :
    Rendering String := do
  let content ← renderFile env files path options
  match options.layout with
  | none => pure content
  | some layout =>
    renderFile env files (layoutPath options.views layout)
      ({ options with layout := none }.set "body" (.string content))

end Rendering

end Stencil
