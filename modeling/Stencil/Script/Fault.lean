import Stencil.Script.Lexer
import Stencil.Number
import Stencil.Text.Quoted

/-!
Why code is refused, and the messages that say so.
-/

namespace Stencil.Script

/-- What stands at the place of a fault. -/
inductive Found where
  | ending
  | text
  | output
  | lexeme (l : Lexeme)

/-- What should have stood there. -/
inductive Wanted where
  | mark (p : Punct)
  | name
  | fieldName

inductive Fault where
  | lexical (fault : LexFault)
  | unexpected (found : Found)
  | expected (wanted : Wanted) (found : Found)
  | strayBrace
  | unclosedBlock
  | jumpOutsideLoop (keyword : String)
  | returnOutsideFunction
  | notCallable

/-- A fault and the line on which its tag opens. -/
structure SyntaxError where
  line : Nat
  fault : Fault

def LexFault.message : LexFault → String
  | unclosedComment => "未闭合的块注释"
  | unclosedText => "未闭合的字符串字面量"
  | newlineInText => "字符串字面量中不能换行"
  | badEscape digits => "无效的 unicode 转义：\\u" ++ digits
  | stray c => "无法识别的字符 '" ++ String.singleton c ++ "'"

def between (s : String) : String := "'" ++ s ++ "'"

def Found.describe : Found → String
  | ending => "模板结尾"
  | text => "模板文本"
  | output => "输出标签"
  | lexeme (.word name) => between name
  | lexeme (.number x) => between (Number.floatText x)
  | lexeme (.text s) => Text.quoted s
  | lexeme (.mark p) => between p.text

def Wanted.describe : Wanted → String
  | mark p => between p.text
  | name => "标识符"
  | fieldName => "属性名"

def Fault.message : Fault → String
  | lexical fault => fault.message
  | unexpected found => "意外的 " ++ found.describe
  | expected wanted found => "此处需要 " ++ wanted.describe ++ "，实际为 " ++ found.describe
  | strayBrace => "多余的 '\x7d'"
  | unclosedBlock => "代码块缺少 '\x7d'"
  | jumpOutsideLoop keyword => keyword ++ " 只能出现在循环中"
  | returnOutsideFunction => "return 只能出现在函数中"
  | notCallable => "只能调用已注册的函数、过滤器或值的方法"

def SyntaxError.message (e : SyntaxError) : String := e.fault.message

end Stencil.Script
