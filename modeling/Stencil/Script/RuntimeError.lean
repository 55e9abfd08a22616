import Stencil.Value
import Stencil.Text.Quoted

/-!
What can go wrong while a template runs, and the messages that say so.
-/

namespace Stencil

/-- A value as it is named in a message. -/
def Value.describe : Value → String
  | null => "null"
  | string s => Text.quoted s
  | array _ => "数组"
  | object _ => "对象"
  | v => v.display

inductive RuntimeError where
  | undefined (name : String)
  | unknownFilter (name : String)
  | filterFailed (name message : String)
  | notAFunction (what : String)
  | functionFailed (name message : String)
  | nullProperty (target property : String)
  | notIterable (what : String)
  | constantAssigned (name : String)
  /-- A function stands where it is not the callback of an array method. -/
  | strayFunction
deriving DecidableEq

def RuntimeError.message : RuntimeError → String
  | undefined name => name ++ " 未定义"
  | unknownFilter name => "未知过滤器：" ++ name
  | filterFailed name message => "过滤器 " ++ name ++ " 执行失败：" ++ message
  | notAFunction what => what ++ " 不是函数"
  | functionFailed name message => "函数 " ++ name ++ " 执行失败：" ++ message
  | nullProperty target property => "无法读取 " ++ target ++ " 的属性 '" ++ property ++ "'"
  | notIterable what => what ++ " 不可迭代"
  | constantAssigned name => "不能给常量 " ++ name ++ " 重新赋值"
  | strayFunction => "函数只能作为数组方法的回调"

end Stencil
