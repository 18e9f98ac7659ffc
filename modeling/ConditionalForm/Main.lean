import ConditionalForm.CommandLine.Run

set_option autoImplicit false

namespace ConditionalForm.CommandLine

def readNode (path : String) : IO FileNode := do
  let real ← IO.FS.realPath path
  if ← real.isDir then return .directory
  return .file (← IO.FS.readBinFile real)

def nodesOnWay (path : String) : IO (List (FilePath × FileNode)) := do
  let segments := Text.split '/' path
  let mut nodes := []
  for count in List.range segments.length do
    let stop := "/".intercalate (segments.take (count + 1))
    try nodes := (FilePath.ofString stop, ← readNode stop) :: nodes
    catch _ => pure ()
  return nodes

partial def nodesBelow (way : FilePath) (entry : IO.FS.DirEntry) :
    IO (List (FilePath × FileNode)) := do
  let here := way ++ [entry.fileName]
  let path := entry.path
  try
    if ← path.isDir then
      let nodes ← (← path.readDir).toList.mapM (nodesBelow here)
      return (here, .directory) :: nodes.flatten
    return [(here, .file (← IO.FS.readBinFile path))]
  catch _ => return []

def nodesOfDirectory (path : String) : IO (List (FilePath × FileNode)) := do
  try
    let real ← IO.FS.realPath path
    return (← (← real.readDir).toList.mapM (nodesBelow (FilePath.ofString path))).flatten
  catch _ => return []

def readTree : Option Request → IO FileTree
  | some (.run command _) => do
      let nodes ← command.paths.mapM nodesOnWay
      let below ← match command with
        | .lint path _ _ _ => nodesOfDirectory path
        | _ => pure []
      return ⟨nodes.flatten ++ below⟩
  | _ => return ⟨[]⟩

end ConditionalForm.CommandLine

open ConditionalForm.CommandLine in
def main (words : List String) : IO UInt32 := do
  let outcome := run (← readTree (Request.ofWords? words)) words
  IO.print outcome.output
  IO.eprint outcome.complaint
  return UInt32.ofNat outcome.code
