import Stencil.Options

/-!
What the program is asked to do: render a file, list its segments, or check templates.
-/

namespace Stencil

/-- How sources are read, as far as the command line says so. -/
structure SourceSettings where
  opener : Option String
  closer : Option String
  /-- White space between tags is kept. -/
  keepSpace : Bool
  debug : Bool

/-- The command line wins over the options it is applied to. -/
def SourceSettings.apply (s : SourceSettings) (o : Options) : Options :=
  { o with
    opener := s.opener.getD o.opener
    closer := s.closer.getD o.closer
    eatspace := if s.keepSpace then false else o.eatspace
    debug := o.debug || s.debug }

/-- A file to be rendered, and with what. -/
structure Page where
  file : String
  settings : SourceSettings
  /-- A file with further options and data. -/
  data : Option String
  /-- Assignments of template variables. -/
  sets : List String
  /-- The file that the result is written to. -/
  output : Option String
  layout : Option String
  views : Option String

inductive Command where
  | render (page : Page)
  | parse (settings : SourceSettings) (file : String)
  | check (settings : SourceSettings) (paths : List String)

/-- A command with the configuration that it names. -/
structure Request where
  project : Option String
  command : Command

end Stencil
