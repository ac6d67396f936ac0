import PluginChain.Builtin.Option
import PluginChain.Text.Search
set_option autoImplicit false

/-!
# Scripts in rendered pages

`inject-script` puts script tags into a page, one for each configured source and in
their order, before the last closing tag of the body.  A file that is no page, or
that has no such tag, stays as it is.
-/

namespace PluginChain.Builtin.InjectScript

variable {σ ω : Type}

/-- The identifier of the plugin. -/
def identifier : String := "inject-script"

/-- What the plugin is to insert. -/
structure Options where
  /-- The sources of the scripts. -/
  scripts : List String
  deriving DecidableEq, Repr, Inhabited

namespace Options

/-- The option as a record. -/
def recordType : RecordType := ⟨"InjectOption", ["scripts"]⟩

/-- Reads the option; there are no scripts where it does not speak of them. -/
def ofJson (v : Json) : Except Mismatch Options := do
  let parts ← Format.parts recordType v
  let scripts ← parts.read recordType "scripts" Json.readTexts
  parts.finish recordType
  return { scripts := scripts.getD [] }

end Options

/-- The closing tag of a page's body. -/
def bodyEnd : List Char := "</body>".toList

/-- The end of the name of a page. -/
def pageSuffix : List Char := ".html".toList

/-- Whether a file with this name is a page. -/
def isPage (fileName : String) : Bool := Search.endsWith pageSuffix fileName.toList

/-- The tag of one script, with the line break behind it. -/
def tag (source : String) : String := "<script src=\"" ++ source ++ "\"></script>\n"

/-- The tags of all scripts. -/
def tags (sources : List String) : List Char := sources.flatMap fun s => (tag s).toList

/-- The text with tags before the last closing tag of the body. -/
def insertTags (sources : List String) (content : List Char) : List Char :=
  match Search.splitLast? bodyEnd content with
  | some (before, rest) => before ++ tags sources ++ rest
  | none => content

/-- The content of a file with the scripts in it. -/
def withScripts (sources : List String) (d : ContentData) : String :=
  if sources.isEmpty || !isPage d.fileName then d.content
  else String.ofList (insertTags sources d.content.toList)

/-- Puts scripts into the content of the event. -/
def inject (options : Options) : Handler σ ω ContentData := fun scene =>
  let d := scene.event.data
  (.ok (),
    { scene with
      event := { scene.event with data := { d with content := withScripts options.scripts d } } })

/-- The plugin. -/
def plugin : Plugin σ ω where
  name := identifier
  hooks := [.content]
  handle
    | .content => withOption identifier Options.ofJson inject
    | _ => Handler.skip

@[simp] theorem tags_nil : tags [] = [] := rfl

theorem tags_append (a b : List String) : tags (a ++ b) = tags a ++ tags b := by
  simp [tags]

/-- Without a closing tag nothing is inserted. -/
theorem insertTags_of_not_occurs {sources : List String} {content : List Char}
    (h : Search.occurs bodyEnd content = false) : insertTags sources content = content := by
  simp [insertTags, Search.splitLast?_eq_none_iff.mpr h]

/-- No tags leave the text as it is. -/
@[simp] theorem insertTags_nil (content : List Char) : insertTags [] content = content := by
  unfold insertTags
  split
  · next h => simpa using Search.append_of_splitLast? h
  · rfl

end PluginChain.Builtin.InjectScript
