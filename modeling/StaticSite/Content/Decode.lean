import StaticSite.Content.Item
import StaticSite.Data.Reading

/-!
# Content from and to values

An item is a record of an icon, a title, a description and a link, of which the last two may be
left out. A known icon is written in its canonical spelling, any other one as it was read.
-/

namespace StaticSite

open Reading

def ContentItem.decode (r : Reading) (v : Value) : Option ContentItem := do
  let es ← r.fields ["icon", "title", "description", "link"] v
  return {
    icon := Icon.read (← required es "icon" r.text)
    title := ← required es "title" r.text
    description := ← defaulted es "description" r.text ""
    link := ← defaulted es "link" (r.optional r.text) none }

def ContentItem.encode (item : ContentItem) : Value :=
  .table
    [("icon", .text item.icon.name), ("title", .text item.title),
      ("description", .text item.description),
      ("link", match item.link with
        | none => .null
        | some link => .text link)]

def decodeItems (r : Reading) : Value → Option (List ContentItem) := list (ContentItem.decode r)

def decodeContent (r : Reading) (v : Value) : Option (List ContentItem) := do
  let es ← r.fields ["items"] v
  required es "items" (decodeItems r)

def encodeItems (items : List ContentItem) : Value := .list (items.map ContentItem.encode)

end StaticSite
