import QosControl.CommandLine

/-! # The program

Reads the files a request names, prints what its answer prints and saves what it
saves. Everything is decided by the answer to the request.
-/
namespace QosControl

/-- What is found at a path. -/
def probe (path : String) : IO StateFile := do
  try
    return .text (← IO.FS.readFile path)
  catch
    | .noFileOrDirectory .. => return .absent
    | _ => return .blocked

def saveTree (path content : String) : IO Unit := do
  let draft := StateFile.draftPath path
  IO.FS.writeFile draft content
  IO.FS.rename draft path

end QosControl

open QosControl in
def main (args : List String) : IO UInt32 := do
  let request := Request.ofArguments args
  let paths := match request with
    | .run _ i => i.paths
    | _ => []
  let found ← paths.mapM fun p => return (p, ← probe p)
  let files := fun p => ((found.find? fun f => f.1 = p).map (·.2)).getD .absent
  let result := request.answer files (← IO.getEnv "QOS_LIMIT_CAPABILITY")
  for line in result.output do
    IO.println line
  match result.saved with
  | some (path, content) =>
    try
      saveTree path content
      return UInt32.ofNat result.exitCode
    catch _ => return 1
  | none => return UInt32.ofNat result.exitCode
