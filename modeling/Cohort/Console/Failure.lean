import Cohort.Settings

/-!
What a command fails with, and how a failure is reported.
-/

namespace Cohort.Console

inductive Subject where
  | segment | statement
  deriving DecidableEq, Repr

def Subject.name : Subject → String
  | segment => "分段定义"
  | statement => "SQL文件"

inductive Failure where
  | settings (error : SettingsError)
  | unreadable (subject : Subject) (path : String) (error : ReadError)
  | malformedSegment (path : String) (error : Json.DecodeError)
  | unreadableInput (error : ReadError)
  | unreadableLines (error : ReadError)
  | issues (segment : String) (count : Nat)

namespace Failure

def message : Failure → String
  | settings error => error.message
  | unreadable subject path _ => "无法读取" ++ subject.name ++ " " ++ path
  | malformedSegment path _ => "无法解析分段定义 " ++ path
  | unreadableInput _ => "无法读取标准输入"
  | unreadableLines _ => "读取输入失败"
  | issues segment count => segment ++ " 有 " ++ Decimal.numberText count ++ " 个问题"

def cause? : Failure → Option String
  | settings error => error.cause?
  | unreadable _ _ error => some error.message
  | malformedSegment _ error => some error.message
  | unreadableInput error => some error.message
  | unreadableLines error => some error.message
  | issues _ _ => none

end Failure

def indented (text : String) : String :=
  String.ofList ("    ".toList ++ text.toList.flatMap fun c =>
    if c = '\n' then "\n    ".toList else [c])

def report (message : String) (cause : Option String) : String :=
  "Error: " ++ message
    ++ (match cause with
        | some cause => "\n\nCaused by:\n" ++ indented cause
        | none => "")
    ++ "\n"

end Cohort.Console
