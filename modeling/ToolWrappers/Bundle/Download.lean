import ToolWrappers.Failure
import ToolWrappers.FileTree.Action
import ToolWrappers.Text.Search

/-! Fetching the tool bundle. The archive on disk is the only cache, and it is put in place in one
step when its last byte has arrived; until then the bytes lie in a partial file beside it. -/

namespace ToolWrappers.Bundle

/-- What asking for a bundle comes to: no usable answer at all, or the bytes of a body, which the client
reads to its end or up to an error. -/
inductive Response
  | refused
  | body (bytes : ByteArray) (complete : Bool)
deriving DecidableEq

/-- The URL without its query and its fragment. -/
def withoutQuery (url : List Char) : List Char := url.takeWhile fun c => c ≠ '?' && c ≠ '#'

/-- The file name under which a bundle is kept: what follows the last slash of its URL. -/
def archiveName (url : String) : Except Failure String :=
  let name := ((withoutQuery url.toList).reverse.takeWhile (· ≠ '/')).reverse
  if name = [] then .error (.noArchiveName url) else .ok (.ofList name)

/-- The partial file beside an archive. -/
def partialPath (archive : String) : String :=
  Path.withFileName archive (((Path.fileName? archive).getD "") ++ ".part")

section

variable [User]

/-- Makes the directories that lead to a path. -/
def makeParents (path : String) : Action Failure Unit :=
  match Path.parent? path with
  | none => pure ()
  | some parent => (Action.makeDirs parent).orFail (.creating parent)

/-- The steps that store the body of a response under the name of the archive. Only the last one
touches the archive itself, and a refused request touches nothing. -/
def downloadSteps (response : Response) (url archive : String) : List (Action Failure Unit) :=
  match response with
  | .refused => [throw (.downloading url)]
  | .body bytes complete =>
    let part := partialPath archive
    [makeParents archive,
      (Action.writeFile part bytes).orFail (.creating part),
      if complete then pure () else throw (.writing part),
      (Action.moveFile part archive).orFail (.moving part)]

def download (response : Response) (url archive : String) : Action Failure Unit :=
  Action.inOrder (downloadSteps response url archive)

/-- Downloads the archive unless it is there, and says whether it did. -/
def ensureArchive (response : Response) (url archive : String) : Action Failure Bool := do
  if (← get).isFile archive then return false
  download response url archive
  return true

end

end ToolWrappers.Bundle
