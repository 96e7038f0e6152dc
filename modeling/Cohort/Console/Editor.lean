import Cohort.Payload.Report
import Cohort.Session

/-!
The line editor: statements that end with a semicolon replace the tree, and lines with a colon in
front ask for something.
-/

namespace Cohort.Console

def linesFrom (line : List Char) : List Char → List String
  | [] => if line.isEmpty then [] else [String.ofList line.reverse]
  | c :: rest =>
      if c = '\n' then
        let line := match line with
          | '\r' :: line => line
          | line => line
        String.ofList line.reverse :: linesFrom [] rest
      else linesFrom (c :: line) rest

def lines (text : String) : List String :=
  linesFrom [] text.toList

structure Editor where
  session : Session
  pending : String := ""

def droppedLines (dropped : List Dropped) : List String :=
  if dropped.isEmpty then ["没有被丢弃的片段"] else dropped.map fun d => "• " ++ d.message

/-- The answer to a line with a colon in front, or nothing if the editor is to end. -/
def answer? (session : Session) (request : String) : Option (List String) :=
  if request = ":quit" ∨ request = ":q" then none
  else if request = ":tree" then some [session.criteria.encode.pretty]
  else if request = ":sql" then some [session.statement]
  else if request = ":dropped" then some (droppedLines session.dropped)
  else some ["未知命令: " ++ request]

def applyTyped (session : Session) (typed : String) : Session × List String :=
  if !session.hasChanges typed then (session, ["没有变化"])
  else
    match session.apply typed with
    | .error error => (session, [error.message])
    | .ok session =>
        let count := session.dropped.length
        let verdict :=
          if count ≠ 0 then
            "⚠️ 有损转换: " ++ Decimal.numberText count ++ " 个片段被丢弃 (:dropped 查看)"
          else if session.hasChanges typed then "✓ 已解析，SQL已规范化"
          else "✓ 已解析"
        (session, [session.statement, verdict])

def endsWith (c : Char) (text : String) : Bool :=
  text.toList.getLast? = some c

def Editor.run : Editor → List String → List String
  | _, [] => []
  | editor, line :: rest =>
      let trimmed := Text.trim line
      if editor.pending.isEmpty && trimmed.toList.head? = some ':' then
        match answer? editor.session trimmed with
        | none => []
        | some printed => printed ++ editor.run rest
      else
        let typed := if editor.pending.isEmpty then line else editor.pending ++ "\n" ++ line
        if endsWith ';' trimmed then
          let (session, printed) := applyTyped editor.session typed
          printed ++ Editor.run ⟨session, ""⟩ rest
        else Editor.run ⟨editor.session, typed⟩ rest

def greeting (session : Session) : List String :=
  ["--- 分段SQL编辑器 (" ++ session.dataset ++ ") ---",
   "输入以 ; 结尾的SQL，命令: :tree :sql :dropped :quit",
   session.statement]

end Cohort.Console
