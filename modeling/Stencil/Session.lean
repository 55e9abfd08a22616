import Stencil.Environment.Standard
import Stencil.Renderer

/-!
Sessions: several renderers at work on the same files. Each has an environment of its own and counts
its compilations; a cache belongs to one of them or is shared.
-/

namespace Stencil

structure Renderer where
  env : Environment
  /-- How often it has compiled. -/
  compiles : Nat
  /-- The cache it uses, by its place in the session. -/
  cache : Nat

structure Session where
  files : FileTree
  caches : List Cache
  renderers : List Renderer
  /-- The stamp of the next template. -/
  stamp : Nat
  log : List Log.Entry

namespace Session

variable {α : Type}

/-- A session without renderers. -/
def start (files : FileTree) : Session := ⟨files, [], [], 0, []⟩

/-- The renderer at a place; a place without one counts as a new renderer without a cache. -/
def renderer (s : Session) (i : Nat) : Renderer :=
  s.renderers[i]?.getD ⟨.standard, 0, s.caches.length⟩

def cache (s : Session) (i : Nat) : Cache := s.caches[(s.renderer i).cache]?.getD ∅

/-- One more renderer, with a new cache. -/
def add (s : Session) : Session :=
  { s with
    caches := s.caches ++ [∅]
    renderers := s.renderers ++ [⟨.standard, 0, s.caches.length⟩] }

/-- One more renderer, with the cache of another. -/
def addSharing (s : Session) (i : Nat) : Session :=
  { s with renderers := s.renderers ++ [⟨.standard, 0, (s.renderer i).cache⟩] }

/-- Changes what a renderer compiles against from now on. -/
def changeEnvironment (s : Session) (i : Nat) (f : Environment → Environment) : Session :=
  { s with renderers := s.renderers.modify i fun r => { r with env := f r.env } }

/-- What a renderer works with. -/
def desk (s : Session) (i : Nat) : Desk := ⟨s.cache i, (s.renderer i).compiles, s.stamp, s.log⟩

/-- Takes over what has become of the desk of a renderer. -/
def keep (s : Session) (i : Nat) (d : Desk) : Session :=
  { s with
    caches := s.caches.set (s.renderer i).cache d.cache
    renderers := s.renderers.modify i fun r => { r with compiles := d.compiles }
    stamp := d.stamp
    log := d.log }

/-- Lets a renderer do something, and takes over what has become of its desk also if it fails. -/
def perform (s : Session) (i : Nat) (work : Environment → FileTree → Rendering α) :
    Except TemplateError α × Session :=
  match (work (s.renderer i).env s.files).run (s.desk i) with
  | .ok a d => (.ok a, s.keep i d)
  | .error e d => (.error e, s.keep i d)

def compile (s : Session) (i : Nat) (source : String) (o : Options) :
    Except TemplateError Template × Session :=
  s.perform i fun env _ => Rendering.compile env source o

def render (s : Session) (i : Nat) (source : String) (o : Options) :
    Except TemplateError String × Session :=
  s.perform i fun env _ => Rendering.render env source o

def renderFile (s : Session) (i : Nat) (path : String) (o : Options) :
    Except TemplateError String × Session :=
  s.perform i fun env files => Rendering.renderFile env files path o

def renderView (s : Session) (i : Nat) (path : String) (o : Options) :
    Except TemplateError String × Session :=
  s.perform i fun env files => Rendering.renderView env files path o

/-- Empties the cache of a renderer. -/
def clearCache (s : Session) (i : Nat) : Session :=
  { s with caches := s.caches.set (s.renderer i).cache ∅ }

end Session

end Stencil
