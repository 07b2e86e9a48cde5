import ZsecShield.Browser.StoredState
import ZsecShield.Lib.Backtrack

/-!
# Bookmarks in HTML

`ExportBookmarksHtml` writes the bookmarks as a page with a link on a line, and `ImportBookmarksHtml`
finds links with a regular expression, in any page.  `HtmlDecode` and the letters of words are
parameters, and the expressions do not time out.
-/

namespace ZsecShield.Browser

open Text (Str str CodePoint)
open Checks
open Backtrack (Expression)

/-- What links take from .NET. -/
structure BookmarkPlatform extends StatePlatform where
  /-- A letter of a word, as `\b` of a regular expression has it. -/
  isWord : CodePoint → Bool
  /-- `HttpUtility.HtmlDecode`. -/
  htmlDecode : Str → Str

/-- `MaximumImportBytes`. -/
def maximumImportBytes : Nat := 8 * 1024 * 1024

/-! ## Encoding -/

def quotation : CodePoint := Text.ofChar '"'

def apostrophe : CodePoint := Text.ofChar '\''

def ampersand : CodePoint := Text.ofChar '&'

def equals : CodePoint := Text.ofChar '='

def less : CodePoint := Text.ofChar '<'

def greater : CodePoint := Text.ofChar '>'

/-- A character in an attribute. -/
def attributePoint (c : CodePoint) : Str :=
  if c = quotation then str "&quot;"
  else if c = ampersand then str "&amp;"
  else if c = less then str "&lt;"
  else if c = apostrophe then str "&#39;"
  else [c]

/-- `HttpUtility.HtmlAttributeEncode`. -/
def htmlAttributeEncode (s : Str) : Str := s.flatMap attributePoint

/-- A character in a text.  The characters from 160 to 255 and pairs are written as numbers, and half
of a pair is replaced. -/
def htmlPoint (c : CodePoint) : Str :=
  if c = greater then str "&gt;"
  else if 160 ≤ c.val ∧ c.val < 256 ∨ 0x10000 ≤ c.val then str "&#" ++ Text.digits c.val ++ str ";"
  else attributePoint (replacePoint c)

/-- `HttpUtility.HtmlEncode`. -/
def htmlEncode (s : Str) : Str := s.flatMap htmlPoint

/-! ## Expressions -/

/-- The groups of `BookmarkAnchor`. -/
inductive AnchorGroup where
  | double
  | single
  | title
  deriving DecidableEq

/-- A letter whatever its case, as `RegexOptions.IgnoreCase` takes it. -/
def ignoringCase (d : Char) (c : CodePoint) : Bool := decide (toLower [c] = [Text.ofChar d])

/-- A text whatever the case of its letters. -/
def anyCase (s : String) : Expression CodePoint AnchorGroup := Backtrack.letters (s.toList.map ignoringCase)

def isPoint (c : CodePoint) : CodePoint → Bool := fun d => decide (d = c)

def otherThan (c : CodePoint) : CodePoint → Bool := fun d => decide (d ≠ c)

/-- A value between two marks, in a group. -/
def between (mark : CodePoint) (name : AnchorGroup) : Expression CodePoint AnchorGroup :=
  .seq (.one (isPoint mark)) (.seq (.group name (.many (otherThan mark))) (.one (isPoint mark)))

/-- `[^>]*>(?<title>.*?)</a>`. -/
def anchorEnd : Expression CodePoint AnchorGroup :=
  .seq (.many (otherThan greater)) (.seq (.one (isPoint greater))
    (.seq (.group .title (.few fun _ => true)) (anyCase "</a>")))

/-- What follows `href` in `BookmarkAnchor`. -/
def anchorValue : Expression CodePoint AnchorGroup :=
  .seq (.many isWhiteSpace) (.seq (.one (isPoint equals)) (.seq (.many isWhiteSpace)
    (.seq (.either (between quotation .double) (between apostrophe .single)) anchorEnd)))

/-- `\bhref` and what follows it. -/
def anchorHref (P : BookmarkPlatform) : Expression CodePoint AnchorGroup :=
  .seq (.boundary P.isWord) (.seq (anyCase "href") anchorValue)

/-- `BookmarkAnchor`. -/
def bookmarkAnchor (P : BookmarkPlatform) : Expression CodePoint AnchorGroup :=
  .seq (anyCase "<a") (.seq (.boundary P.isWord) (.seq (.many (otherThan greater)) (anchorHref P)))

/-- `HtmlTag`. -/
def htmlTag : Expression CodePoint AnchorGroup :=
  .seq (.one (isPoint less)) (.seq (.seq (.one (otherThan greater)) (.many (otherThan greater)))
    (.one (isPoint greater)))

/-! ## Files -/

/-- What `FileInfo` says of a file, and its bytes. -/
structure ImportFile where
  reparsePoint : Bool
  bytes : Bytes

/-- `GetRegularBoundedFile`. -/
def getRegularBoundedFile (file : Option ImportFile) (maximum : Nat) : Except StateError Bytes := do
  let file ← fromOption file (.invalidOperation (str "ZSEC requires a regular import file."))
  require (file.reparsePoint = false) (.invalidOperation (str "ZSEC requires a regular import file."))
  require (0 < file.bytes.length ∧ file.bytes.length ≤ maximum)
    (.invalidData (str "The import file has an invalid size."))
  pure file.bytes

/-! ## Import -/

/-- The loop of `ImportBookmarksHtml`: the bookmarks, and how many were added. -/
def collectBookmarks (P : BookmarkPlatform) (now : Str) (bookmarks : List Bookmark) (added : Nat) :
    List (List (AnchorGroup × Str)) → List Bookmark × Nat
  | [] => (bookmarks, added)
  | groups :: rest =>
      if maximumBookmarks ≤ bookmarks.length then (bookmarks, added)
      else
        let candidate := (groups.lookup .double).getD ((groups.lookup .single).getD [])
        match tryNormalizeWebUrl P.toStatePlatform (some (P.htmlDecode candidate)) with
        | none => collectBookmarks P now bookmarks added rest
        | some parsed =>
            if bookmarks.any fun item => decide
                (ignoreCase P.toStatePlatform item.url = ignoreCase P.toStatePlatform parsed.text) then
              collectBookmarks P now bookmarks added rest
            else
              let title := P.htmlDecode (Backtrack.removed htmlTag ((groups.lookup .title).getD []))
              let bookmark := ⟨normalizeTitle (some title) parsed.host, parsed.text, now⟩
              collectBookmarks P now (bookmarks ++ [bookmark]) (added + 1) rest

/-- `ImportBookmarksHtml` at a time. -/
def importBookmarksHtml (P : BookmarkPlatform) (now : Str) (data : ProductData)
    (file : Option ImportFile) : Except StateError (Outcome Nat) := do
  let bytes ← getRegularBoundedFile file maximumImportBytes
  let html := readAllText P.toVaultPlatform bytes
  let (bookmarks, added) :=
    collectBookmarks P now data.bookmarks 0 (Backtrack.matchesOf (bookmarkAnchor P) html)
  if 0 < added then saveState P.toStatePlatform now { data with bookmarks }.raw added
  else pure ⟨added, data, none⟩

/-! ## Export -/

/-- Raised by `ExportBookmarksHtml`. -/
inductive ExportError where
  | directoryNotFound (text : Str)

/-- A link on its line. -/
def bookmarkLine (url title : Str) : Str :=
  str "  <dt><a href=\"" ++ (url ++ (str "\">" ++ (title ++ (str "</a>" ++ newLine))))

/-- The lines before the links. -/
def exportHead : Str :=
  str "<!DOCTYPE NETSCAPE-Bookmark-file-1>" ++ newLine ++ (str "<meta charset=\"UTF-8\">" ++ newLine) ++
    (str "<title>ZSEC Browser Bookmarks</title>" ++ newLine) ++
    (str "<h1>ZSEC Browser Bookmarks</h1>" ++ newLine) ++ (str "<dl><p>" ++ newLine)

/-- The line behind the links. -/
def exportFoot : Str := str "</dl><p>" ++ newLine

/-- What `ExportBookmarksHtml` writes of a bookmark. -/
def exportLine (P : StatePlatform) (b : Bookmark) : Str :=
  match tryNormalizeWebUrl P (some b.url) with
  | none => []
  | some parsed => bookmarkLine (htmlAttributeEncode parsed.text)
      (htmlEncode (normalizeTitle (some b.title) parsed.host))

/-- `ExportBookmarksHtml`: the bytes of the file, whose directory exists or not. -/
def exportBookmarksHtml (P : StatePlatform) (directory : Bool) (data : ProductData) :
    Except ExportError Bytes := do
  require (directory = true)
    (.directoryNotFound (str "The bookmark export directory does not exist."))
  pure (getBytes (exportHead ++ (data.bookmarks.flatMap (exportLine P) ++ exportFoot)))

end ZsecShield.Browser
