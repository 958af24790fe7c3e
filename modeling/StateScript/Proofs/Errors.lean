import StateScript.Error

/-!
The code of an error. What is added to an error on its way out leaves it alone.
-/

namespace StateScript.Error

@[simp] theorem code_expression (code : ErrorCode) (message : String) :
    (expression code message).code = code := rfl

@[simp] theorem code_action (code : ErrorCode) (message : String) : (action code message).code = code := rfl

@[simp] theorem code_withContext (context : ErrorContext) (e : Error) :
    (e.withContext context).code = e.code := by
  cases e <;> rfl

@[simp] theorem code_withExpression (source : String) (e : Error) :
    (e.withExpression source).code = e.code := by
  unfold withExpression
  split
  · rfl
  · exact code_withContext ..

@[simp] theorem code_withMetadata (key : String) (value : Json) (e : Error) :
    (e.withMetadata key value).code = e.code := code_withContext ..

@[simp] theorem code_withAction (raw : Json) (e : Error) : (e.withAction raw).code = e.code := by
  unfold withAction
  split
  · rfl
  · exact code_withContext ..

end StateScript.Error
