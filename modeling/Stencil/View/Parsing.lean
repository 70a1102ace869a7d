import Stencil.Markup.Minify
import Stencil.Template.Building
import Stencil.View.Basic

/-!
# Parsing a view

The source of a view is minified unless the view says otherwise, and read with the views of its
registry. An error tells in which view it arose, and shows the source.
-/

namespace Stencil.View

def readSource (v : View) : String :=
  if v.isText || v.isUnminified then v.source else Markup.minify v.source

/-- What an error from this view adds to its message. -/
def context (v : View) : String :=
  "\n\nWithin template \"" ++ v.name ++ "\":\n" ++ v.source

def scene (v : View) (registry : Registry) (strict : Bool) : Scene :=
  ⟨some v, registry, strict, .passive⟩

/-- Reads a source as the template of this view, and gives the notices of doing so. -/
def readAs (v : View) (registry : Registry) (strict : Bool) (source : String) :
    Except Error Template × List Log.Notice :=
  let scene := v.scene registry strict
  let (result, b) := (Builder.start .default).run
    (if v.isText then Build.plain scene source else Build.markup scene source)
  (result, b.notices)

def parse (v : View) (registry : Registry) (strict : Bool) :
    Except Error Template × List Log.Notice :=
  let (result, notices) := v.readAs registry strict v.readSource
  (result.mapError (·.within v.context), notices)

def registered (v : View) : Log.Notice :=
  ⟨Log.viewsLog, .debug, "Registered view",
    [("view", .text v.name),
      ("elements", if v.elements.isEmpty then .null else .list v.elements)]⟩

end Stencil.View
