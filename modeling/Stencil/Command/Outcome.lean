import Stencil.Check
import Stencil.Command.Failure
import Stencil.Command.Request
import Stencil.Environment.Standard
import Stencil.Log.Filter

/-!
Running commands on a tree of files: what is printed and logged, and which file is written.
-/

namespace Stencil

/-- A file with its new text. -/
structure Written where
  path : String
  text : String

/-- What a command that succeeds leaves behind, besides the log. -/
structure Product where
  output : String
  written : Option Written

/-- What running the program gives. -/
structure Outcome where
  code : Nat
  output : String
  /-- The messages for the user, which may have several lines. -/
  messages : List String
  written : Option Written

/-- A computation that logs, and keeps its log when it fails. -/
abbrev Running := EStateM Failure (List Log.Entry)

namespace Running

def lift {α : Type} (r : Except Failure α) : Running α :=
  match r with
  | .ok a => pure a
  | .error f => throw f

def log (level : Log.Level) (message : String) : Running Unit :=
  modify fun entries => entries ++ [.ofProgram level message]

def logAll (entries : List Log.Entry) : Running Unit := modify fun before => before ++ entries

end Running

namespace Page

/-- The options that a page is rendered with: the configuration under the settings of the command line,
over it the data file, and over all the assignments, the layout and the directory of layouts. -/
def layered (p : Page) (base : Options) (data : Option Options) (sets : List Assignment) : Options :=
  let o := p.settings.apply base
  let o := data.elim o o.merge
  let o := sets.foldl (fun o a => o.set a.name a.value) o
  { o with layout := p.layout.or o.layout, views := p.views.or o.views }

/-- The options in the data file, if one is named. -/
def dataOptions (files : FileTree) (p : Page) : Except Failure (Option Options) :=
  match p.data with
  | none => .ok none
  | some path =>
    match files.read path with
    | .error fault => .error (.noData path fault)
    | .ok text => (Options.ofJson? text).elim (.error .badData) fun o => .ok (some o)

def options (files : FileTree) (base : Options) (p : Page) : Except Failure Options := do
  let data ← p.dataOptions files
  let sets ← p.sets.mapM fun text => (Assignment.ofText text).mapError .assignment
  pure (p.layered base data sets)

/-- Renders a page by a new renderer. -/
def render (files : FileTree) (base : Options) (p : Page) : Running Product := do
  let options ← Running.lift (p.options files base)
  let view := Rendering.renderView .standard files p.file options
  match view.run .new with
  | .error e desk => do
    Running.logAll desk.log
    throw (.template e)
  | .ok text desk => do
    Running.logAll desk.log
    match p.output with
    | none => pure ⟨text, none⟩
    | some path =>
      match files.write path text with
      | .error fault => throw (.unwritten path fault)
      | .ok _ => do
        Running.log .info ("已渲染 " ++ p.file ++ " → " ++ path)
        pure ⟨"", some ⟨path, text⟩⟩

end Page

namespace Command

/-- Lists the segments of a file. -/
def listing (files : FileTree) (o : Options) (path : String) : Except Failure Product :=
  match files.read path with
  | .error fault => .error (.unread path fault)
  | .ok source =>
    match Template.parse source { o with filename := some path } with
    | .error e => .error (.template e)
    | .ok segments => .ok ⟨Segment.listing segments ++ "\n", none⟩

def checkAll (files : FileTree) (o : Options) (paths : List String) : Running Product := do
  Running.logAll (Check.logged files paths o)
  let report := Check.run files .standard paths o
  Running.logAll (report.warnings.map (.ofProgram .warning))
  Running.logAll (report.errors.map (.ofProgram .error))
  if report.errors.isEmpty then
    Running.log .info
      ("检查通过：" ++ toString report.checked ++ " 个模板（" ++ toString report.warnings.length ++
        " 个警告）")
    pure ⟨"", none⟩
  else throw (.unchecked report.errors.length report.warnings.length)

def run (files : FileTree) (base : Options) : Command → Running Product
  | render page => page.render files base
  | parse settings path => Running.lift (listing files (settings.apply base) path)
  | check settings paths => checkAll files (settings.apply base) paths

end Command

namespace Outcome

/-- The notices of a filter, and the entries of a log that it shows. -/
def shown (filter : Log.Filter) (log : List Log.Entry) : List String :=
  filter.notices ++ (log.filter filter.shows).map Log.Entry.text

def failed (messages : List String) (f : Failure) : Outcome := ⟨1, "", messages ++ [f.text], none⟩

/-- How the program is used. -/
def usage : String :=
  "Usage: ejs [--config PATH] (render FILE | parse FILE | check [PATH]...) [OPTION]..."

/-- Runs the program. -/
def ofArguments (files : FileTree) (args : List String) : Outcome :=
  match Request.ofArguments? args with
  | none => ⟨2, "", [usage], none⟩
  | some request =>
    match Project.choose files request.project with
    | .error fault => failed [] (.project fault)
    | .ok project =>
      let filter := Log.Filter.ofText project.logLevel
      match (request.command.run files project.options).run [] with
      | .error f log => failed (shown filter log) f
      | .ok product log => ⟨0, product.output, shown filter log, product.written⟩

/-- The files after the program has run on them. -/
def filesAfter (files : FileTree) (o : Outcome) : FileTree :=
  match o.written with
  | none => files
  | some w => (files.write w.path w.text).toOption.getD files

end Outcome

end Stencil
