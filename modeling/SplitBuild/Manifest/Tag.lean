import SplitBuild.Context
/-!
# Component tags

A page may use a tag without declaring it where the host provides the
component itself or the program declares it for every page.
-/

namespace SplitBuild

namespace Tag

/-! ## Tags of the host -/

/-- Containers that lay out views. -/
def containers : List String :=
  ["cover-image", "cover-view", "grid-view", "list-view", "match-media", "movable-area",
   "movable-view", "page-container", "root-portal", "scroll-view", "share-element", "sticky-header",
   "sticky-section", "swiper", "swiper-item", "view"]

/-- Basic content. -/
def content : List String :=
  ["icon", "progress", "rich-text", "text"]

/-- Parts of forms. -/
def forms : List String :=
  ["button", "checkbox", "checkbox-group", "editor", "form", "input", "keyboard-accessory", "label",
   "picker", "picker-view", "picker-view-column", "radio", "radio-group", "slider", "switch",
   "textarea"]

/-- Navigation. -/
def navigation : List String :=
  ["functional-page-navigator", "navigator"]

/-- Media. -/
def media : List String :=
  ["audio", "camera", "channel-live", "channel-video", "image", "live-player", "live-pusher",
   "video", "voip-room", "map", "canvas"]

/-- Views that the host opens to programs. -/
def capabilities : List String :=
  ["web-view", "ad", "ad-custom", "official-account", "open-data", "native-component",
   "aria-component", "navigation-bar", "page-meta"]

/-- The tags of the components that the host provides. -/
def builtin : List String :=
  containers ++ content ++ forms ++ navigation ++ media ++ capabilities

/-- The host provides a tag. -/
def isBuiltin (tag : String) : Bool := builtin.contains tag

end Tag

/-- A tag needs no declaration by the page that uses it. -/
def Context.isGlobalTag (ctx : Context) (tag : String) : Bool :=
  Tag.isBuiltin tag || ctx.globalTags.contains tag

end SplitBuild
