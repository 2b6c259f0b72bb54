import BuildMeta.Build.Generator
import BuildMeta.Notice

/-!
# Build events

What a build does beside computing values: it talks to the user, and it asks the build tool for
things.  The events are kept in order.
-/

namespace BuildMeta.Build

/-- A colour of text on a terminal. -/
inductive Color where
  | cyan
  | yellow
  | red
  | green
  /-- The colour of plain text. -/
  | normal
deriving Repr, BEq, DecidableEq, Inhabited

/-- The name of a colour. -/
def Color.name : Color → String
  | cyan => "CYAN"
  | yellow => "YELLOW"
  | red => "RED"
  | green => "GREEN"
  | normal => "NORMAL"

/-- The marks that switch a terminal to a colour. -/
abbrev Palette := Color → String

/-- Text in a colour, after which the terminal is switched back. -/
def Palette.paint (marks : Palette) (color : Color) (text : String) : String :=
  marks color ++ text ++ marks .normal

/-- One thing that a build does. -/
inductive Event where
  | notice (n : Notice)
  /-- A line in a colour. -/
  | painted (color : Color) (text : String)
  /-- A tool of the build tool is loaded. -/
  | load (tool : String)
  /-- A program is looked for, in given places if there are any. -/
  | findProgram (name : String) (places : Option (List String))
  /-- The flags of a package are asked for. -/
  | checkPackage (name : String) (arguments : List String)
  /-- The compiler is tried with arguments. -/
  | checkCompiler (arguments : List (String × Datum))
  /-- The test results are to be reported once the build has ended. -/
  | reportAfterwards
  | generator (g : Generator)
  /-- The text of a pkg-config file. -/
  | pcText (text : String)
  /-- Files are installed at a place. -/
  | install (place : String) (files : List String)
  /-- The build description in a directory is followed. -/
  | enter (dir : String)
  /-- A program is run. -/
  | call (words : List String)
deriving Inhabited

namespace Event

/-- A notice by its kind and texts. -/
def noticeView : Notice → Datum
  | .info t => .strs ["info", t]
  | .warn t => .strs ["warn", t]
  | .entry a b => .strs ["msg", a, b]
  | .opening t => .strs ["start", t]
  | .closing t => .strs ["end", t]
  | n => .strs ["text", n.text]

/-- An event by its kind and arguments. -/
def view : Event → Datum
  | notice n => noticeView n
  | painted c t => .strs ["pprint", c.name, t]
  | load tool => .strs ["load", tool]
  | findProgram name places =>
    .list [.str "find_program", .str name,
      .dict (places.map fun ps => ("path_list", Datum.strs ps)).toList]
  | checkPackage name args => .list [.str "check_cfg", .str name, .strs args]
  | checkCompiler args => .list [.str "check", .dict args]
  | reportAfterwards => .strs ["add_post_fun", "post_build_fun"]
  | generator g => .list [.str "taskgen", .dict g.arguments]
  | pcText t => .strs ["pc", t]
  | install place files => .list [.str "install_files", .str place, .strs files]
  | enter dir => .strs ["recurse", dir]
  | call words => .list [.str "call", .strs words]

/-- The order of installations: by place, then by files. -/
def installLe (a b : String × List String) : Bool :=
  decide (a.1 < b.1) || (a.1 == b.1 && Text.textsLe a.2 b.2)

/-- Adds an event to the newest-first list of events.  Installations that follow each other are kept
in order of their places and files. -/
def push (e : Event) : List Event → List Event
  | old :: rest =>
    match e, old with
    | install place files, install place' files' =>
      if installLe (place', files') (place, files) then e :: old :: rest
      else old :: push e rest
    | _, _ => e :: old :: rest
  | [] => [e]

end Event

end BuildMeta.Build
