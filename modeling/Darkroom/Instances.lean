/-!
# Powers, the order of lists and their items

Words, digests and doubles are put together from powers of whole numbers, files are listed in the
order of their names, and texts are checked character by character.  A larger library has other
instances of all three; here they are always those of the core library.
-/

attribute [instance (high), default_instance (high + 1)] instPowNat Rat.instPowNat

attribute [instance (high)] List.instLE

attribute [instance (high)] List.decidableBAll
